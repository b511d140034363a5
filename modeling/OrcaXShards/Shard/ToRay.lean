import OrcaXShards.Shard.Methods
import OrcaXShards.Ray.Handoff

/-!
# `to_ray()` on the driver

`to_ray()` draws one object id per partition, runs `put_to_plasma` in every partition,
collects the kept (object id, node ip) pairs and sorts them by ip.  `Env.putToPlasma` runs
that job as `Plasma` models it, along what Spark and the nodes do in the session.  So the
driver returns exactly when the run leaves every partition with a kept result, and it
returns `World.toRay` of that run.  With ids that are distinct and absent from every store
the run is one `Handoff` proves safe, and what the driver returns carries that safety.
-/

namespace OrcaXShards
namespace SparkXShards

open Plasma

variable {env : Env} {h : Heap} {x : Nat} {ps : List (List PyObj)}

/-- The job over computed partitions either hands the driver the run's collected pairs or
aborts. -/
theorem putToPlasma_of_run {r : Rdd PyObj} (hr : r.computed = .ok ps) {w : World String PyObj}
    (hw : run (env.objectIds ps.length) (plasmaContent ps) (World.init env.plasmaStores)
      (env.plasmaSchedule ps.length) = some w) :
    env.putToPlasma r = match w.collected ps.length with
      | some pairs => .ok pairs
      | none => .error ⟨.py4jJavaError, "Job aborted due to stage failure"⟩ := by
  cases hc : w.collected ps.length <;> simp only [Env.putToPlasma, hr, hw, Option.some_bind, hc]

/-- What `to_ray()` returns on a collection that computes: `World.toRay` of the job's run,
or the abort. -/
theorem toRay_of_run (hx : h.Computes x ps) {w : World String PyObj}
    (hw : run (env.objectIds ps.length) (plasmaContent ps) (World.init env.plasmaStores)
      (env.plasmaSchedule ps.length) = some w) :
    (toRay env x h).1 = match w.toRay ps.length env.objectStoreAddress with
      | some parts => .ok parts
      | none => .error ⟨.py4jJavaError, "Job aborted due to stage failure"⟩ := by
  obtain ⟨o, ho, hr⟩ := hx
  cases hc : w.collected ps.length <;>
    simp [toRay, get_of ho, putToPlasma_of_run hr hw, hc, uncache_apply ho, World.toRay]

/-- `to_ray()` on a collection that computes to `ps`, with ids drawn distinct and absent
from every store.  The session's job runs to a world in which every object a store holds
under `object_ids[i]` is partition `i`'s elements and no store accepted two puts under one
id.  `to_ray()` returns exactly when every partition has a kept result, and then it returns
`World.toRay` of that world: each object id once, each naming a node that holds its
partition, sorted by ip, in partition order within one ip. -/
theorem toRay_on_driver (env : Env) (hx : h.Computes x ps)
    (hnodup : (env.objectIds ps.length).Nodup)
    (hfresh : ∀ node, ∀ id ∈ env.objectIds ps.length, env.plasmaStores node id = none) :
    ∃ w, run (env.objectIds ps.length) (plasmaContent ps) (World.init env.plasmaStores)
        (env.plasmaSchedule ps.length) = some w ∧
      (∀ node i id c, (env.objectIds ps.length)[i]? = some id → w.store node id = some c →
        c = plasmaContent ps i) ∧
      w.puts.Nodup ∧
      ((∃ parts, (toRay env x h).1 = .ok parts) ↔ ∀ i < ps.length, (w.kept i).isSome) ∧
      ∀ parts, (toRay env x h).1 = .ok parts →
        w.toRay ps.length env.objectStoreAddress = some parts ∧
        (parts.map (·.objectId)).Perm (env.objectIds ps.length) ∧
        (∀ p ∈ parts, ∃ i, (env.objectIds ps.length)[i]? = some p.objectId ∧
          w.store p.nodeIp p.objectId = some (plasmaContent ps i)) ∧
        parts.Pairwise (fun p q => p.nodeIp ≤ q.nodeIp) ∧
        ∀ ip, ((parts.filter (·.nodeIp = ip)).map (·.objectId)).Sublist
          (env.objectIds ps.length) := by
  obtain ⟨w, hw⟩ := Option.isSome_iff_exists.mp (env.plasmaSchedule_runs ps.length (plasmaContent ps))
  have hs := safe_reachable hnodup hfresh (run_reachable _ _ .init hw)
  have hret := toRay_of_run hx hw
  have hreturns : ∀ parts, (toRay env x h).1 = .ok parts →
      w.toRay ps.length env.objectStoreAddress = some parts := by
    intro parts hp
    rw [hret] at hp
    split at hp <;> cases hp
    assumption
  have hreturns_iff : (∃ parts, (toRay env x h).1 = .ok parts) ↔
      ∀ i < ps.length, (w.kept i).isSome := by
    constructor
    · rintro ⟨parts, hp⟩ i hi
      obtain ⟨pairs, hc, -⟩ := Option.map_eq_some'.mp (hreturns parts hp)
      obtain ⟨hlen, hkept⟩ := collected_spec hc
      rw [hkept i (hlen ▸ hi)]
      rfl
    · intro hkept
      obtain ⟨parts, hparts⟩ := Option.isSome_iff_exists.mp
        (show (w.toRay ps.length env.objectStoreAddress).isSome by
          simpa [World.toRay] using collected_isSome hkept)
      exact ⟨parts, by rw [hret, hparts]⟩
  refine ⟨w, hw, hs.own, hs.puts_nodup, hreturns_iff, fun parts hp => ⟨hreturns parts hp, ?_⟩⟩
  have hparts : w.toRay (env.objectIds ps.length).length env.objectStoreAddress = some parts := by
    rw [env.objectIds_length]
    exact hreturns parts hp
  exact toRay_spec hs hparts

/-- A heap whose one collection holds one partition, `[5]`. -/
def oneTaskHeap : Heap := ⟨[mk (Rdd.ofParts [[.int 5]]) true false]⟩

/-- The world `Env.simple`'s job over that partition runs to. -/
def oneTaskWorld : World String PyObj :=
  (run ((Env.simple true).objectIds 1) (plasmaContent [[.int 5]])
    (World.init (Env.simple true).plasmaStores) ((Env.simple true).plasmaSchedule 1)).getD
    (World.init fun _ _ => none)

theorem oneTaskHeap_toRay :
    (toRay (Env.simple true) 0 oneTaskHeap).1 = .ok [⟨"0", "10.0.0.1", "/tmp/plasma"⟩] := by
  have hc : oneTaskWorld.collected 1 = some [("0", "10.0.0.1")] := by decide
  rw [@toRay_of_run (Env.simple true) oneTaskHeap 0 [[.int 5]] ⟨_, rfl, Rdd.computed_ofParts _⟩
    oneTaskWorld rfl]
  simp only [List.length_singleton, World.toRay, hc, Option.map_some', sortByIp,
    List.mergeSort_singleton, List.map]
  rfl

/-- `toRay_on_driver` on the session `Env.simple`, whose node `10.0.0.1` runs the one task to
the end: `to_ray()` returns the one `RayPartition` on that node. -/
theorem toRay_on_driver_one_task :
    oneTaskHeap.Computes 0 [[.int 5]] ∧
    ((Env.simple true).objectIds 1).Nodup ∧
    (∀ node, ∀ id ∈ (Env.simple true).objectIds 1, (Env.simple true).plasmaStores node id = none) ∧
    (toRay (Env.simple true) 0 oneTaskHeap).1 = .ok [⟨"0", "10.0.0.1", "/tmp/plasma"⟩] ∧
    ∃ w, run ((Env.simple true).objectIds 1) (plasmaContent [[.int 5]])
        (World.init (Env.simple true).plasmaStores) ((Env.simple true).plasmaSchedule 1) = some w ∧
      (∀ node i id c, ((Env.simple true).objectIds 1)[i]? = some id → w.store node id = some c →
        c = plasmaContent [[.int 5]] i) ∧
      w.puts.Nodup ∧
      ((∃ parts, (toRay (Env.simple true) 0 oneTaskHeap).1 = .ok parts) ↔
        ∀ i < 1, (w.kept i).isSome) ∧
      ∀ parts, (toRay (Env.simple true) 0 oneTaskHeap).1 = .ok parts →
        w.toRay 1 "/tmp/plasma" = some parts ∧
        (parts.map (·.objectId)).Perm ((Env.simple true).objectIds 1) ∧
        (∀ p ∈ parts, ∃ i, ((Env.simple true).objectIds 1)[i]? = some p.objectId ∧
          w.store p.nodeIp p.objectId = some (plasmaContent [[.int 5]] i)) ∧
        parts.Pairwise (fun p q => p.nodeIp ≤ q.nodeIp) ∧
        ∀ ip, ((parts.filter (·.nodeIp = ip)).map (·.objectId)).Sublist
          ((Env.simple true).objectIds 1) := by
  have hx : oneTaskHeap.Computes 0 [[.int 5]] := ⟨_, rfl, Rdd.computed_ofParts _⟩
  exact ⟨hx, by decide, fun _ _ _ => rfl, oneTaskHeap_toRay,
    toRay_on_driver (Env.simple true) hx (by decide) fun _ _ _ => rfl⟩

end SparkXShards
end OrcaXShards
