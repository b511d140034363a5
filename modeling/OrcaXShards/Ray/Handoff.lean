import OrcaXShards.Ray.Plasma

/-!
# Safety of the `to_ray` job in every interleaving

The pre-generated object ids make a put idempotent per store: an attempt that finds its
id in its node's store skips the put, and a put under a present id fails.  This module
proves what that buys in every reachable state of the job in `Plasma`:

* every object a store holds under `object_ids[i]` is partition `i`'s content;
* no store accepts two puts under one id;
* on return, the `RayPartition`s name each object id once, each on a node whose store
  holds that partition, sorted by ip and in partition order within a node.

It also shows what the ids do not buy.  The `contains` check asks only the attempt's
own node.  So an attempt that dies after its put, followed by a retry on another node,
leaves a second copy that no `RayPartition` names.

The invariant is `Safe`.  It holds initially when the ids are fresh, and `safe_step`
shows that every step keeps it.  `step_cases` says once everything a step can do.
-/

namespace OrcaXShards
namespace Plasma

variable {ι κ : Type} {ids : List ι} {P : Nat → κ}

theorem target_spec {w : World ι κ} {a : Nat} {t : Attempt} {id : ι}
    (h : w.target ids a = some (t, id)) :
    w.attempts[a]? = some t ∧ ids[t.index]? = some id := by
  unfold World.target at h
  split at h
  · rename_i t' ht'
    simp only [Option.map_eq_some', Prod.mk.injEq] at h
    obtain ⟨id', hid, rfl, rfl⟩ := h
    exact ⟨ht', hid⟩
  · cases h

/-! ## The invariant -/

/-- What holds in every reachable state of the job. -/
structure Safe (ids : List ι) (P : Nat → κ) (w : World ι κ) : Prop where
  /-- Every object a store holds under `object_ids[i]` is partition `i`'s content. -/
  own : ∀ node i id c, ids[i]? = some id → w.store node id = some c → c = P i
  /-- An attempt past its put, or past a `contains` that found the id, has the object in
  its node's store. -/
  stored : ∀ t ∈ w.attempts, t.phase = .stored →
    ∃ id, ids[t.index]? = some id ∧ (w.store t.node id).isSome
  /-- A kept result for partition `i` names `object_ids[i]` and a node that holds it. -/
  kept : ∀ i r, w.kept i = some r → ids[i]? = some r.1 ∧ (w.store r.2 r.1).isSome
  /-- Every accepted put is still in its store. -/
  puts_held : ∀ p ∈ w.puts, (w.store p.1 p.2).isSome
  /-- No store accepted two puts under one id. -/
  puts_nodup : w.puts.Nodup

/-- Fresh ids: before the job, no store holds any of the pre-generated ids. -/
theorem safe_init {store₀ : String → ι → Option κ}
    (hfresh : ∀ node, ∀ id ∈ ids, store₀ node id = none) :
    Safe ids P (World.init store₀) where
  own node i id c hid hc := by
    simp [World.init, hfresh node id (List.getElem?_mem hid)] at hc
  stored t ht := by simp [World.init] at ht
  kept i r h := by simp [World.init] at h
  puts_held p hp := by simp [World.init] at hp
  puts_nodup := List.nodup_nil

theorem safe_launch {w : World ι κ} (hs : Safe ids P w) (i : Nat) (node : String) :
    Safe ids P (w.launch i node) where
  own := hs.own
  stored t ht hph := by
    rcases List.mem_append.mp ht with ht | ht
    · exact hs.stored t ht hph
    · simp only [List.mem_singleton] at ht
      subst ht
      cases hph
  kept := hs.kept
  puts_held := hs.puts_held
  puts_nodup := hs.puts_nodup

theorem safe_drop {w : World ι κ} (hs : Safe ids P w) (a : Nat) : Safe ids P (w.drop a) where
  own := hs.own
  stored t ht := hs.stored t (List.mem_of_mem_eraseIdx ht)
  kept := hs.kept
  puts_held := hs.puts_held
  puts_nodup := hs.puts_nodup

/-- The answer of `contains` keeps the invariant: an attempt moves to `stored` only when
its node's store holds the id. -/
theorem safe_advance {w : World ι κ} (hs : Safe ids P w) {a : Nat} {t : Attempt} {id : ι}
    {p : Phase} (ht : w.target ids a = some (t, id))
    (hp : p = .stored → (w.store t.node id).isSome) :
    Safe ids P (w.advance a t p) where
  own := hs.own
  stored t' ht' hph := by
    rcases List.mem_or_eq_of_mem_set ht' with ht' | rfl
    · exact hs.stored t' ht' hph
    · exact ⟨id, (target_spec ht).2, hp hph⟩
  kept := hs.kept
  puts_held := hs.puts_held
  puts_nodup := hs.puts_nodup

/-- Keeping a returned result keeps the invariant: the attempt was `stored`, so its node
holds the id it yields. -/
theorem safe_keep {w : World ι κ} (hs : Safe ids P w) {a : Nat} {t : Attempt} {id : ι}
    (ht : w.target ids a = some (t, id)) (hph : t.phase = .stored) :
    Safe ids P ((w.keep t.index (id, t.node)).drop a) := by
  obtain ⟨hat, hid⟩ := target_spec ht
  have hkept : ∀ i r, (w.keep t.index (id, t.node)).kept i = some r →
      ids[i]? = some r.1 ∧ (w.store r.2 r.1).isSome := by
    intro i r hr
    rw [World.keep_kept] at hr
    split at hr
    · subst i
      cases hk : w.kept t.index with
      | some r' =>
        rw [hk] at hr
        obtain rfl : r' = r := Option.some.inj hr
        exact hs.kept _ _ hk
      | none =>
        rw [hk] at hr
        obtain rfl : (id, t.node) = r := Option.some.inj hr
        obtain ⟨id', hid', hheld⟩ := hs.stored t (List.getElem?_mem hat) hph
        rw [hid] at hid'
        cases hid'
        exact ⟨hid, hheld⟩
    · exact hs.kept i r hr
  have hs' : Safe ids P (w.keep t.index (id, t.node)) :=
    ⟨hs.own, hs.stored, hkept, hs.puts_held, hs.puts_nodup⟩
  exact safe_drop hs' a

/-! ## Steps keep the invariant -/

section Steps

variable [DecidableEq ι]

/-- Everything one step of the job can do: start an attempt, record the answer of
`contains`, have a put accepted, keep a returned result, or remove an attempt (it died,
or its put was refused). -/
theorem step_cases {w w' : World ι κ} {act : Action} (h : step ids P w act = some w') :
    (∃ i node, i < ids.length ∧ w' = w.launch i node) ∨
    (∃ a t id p, w.target ids a = some (t, id) ∧
      (p = .stored → (w.store t.node id).isSome) ∧ w' = w.advance a t p) ∨
    (∃ a t id, w.target ids a = some (t, id) ∧ w.store t.node id = none ∧
      w' = (w.write t.node id (P t.index)).advance a t .stored) ∨
    (∃ a t id, w.target ids a = some (t, id) ∧ t.phase = .stored ∧
      w' = (w.keep t.index (id, t.node)).drop a) ∨
    (∃ a, w' = w.drop a) := by
  cases act with
  | launch i node =>
    simp only [step] at h
    split at h
    · exact .inl ⟨i, node, ‹_›, (Option.some.inj h).symm⟩
    · cases h
  | contains a =>
    simp only [step] at h
    split at h
    · rename_i t id ht
      split at h
      · refine .inr (.inl ⟨a, t, id, _, ht, ?_, (Option.some.inj h).symm⟩)
        split <;> simp_all
      · cases h
    · cases h
  | put a =>
    simp only [step] at h
    split at h
    · rename_i t id ht
      split at h
      · split at h
        · exact .inr (.inr (.inr (.inr ⟨a, (Option.some.inj h).symm⟩)))
        · refine .inr (.inr (.inl ⟨a, t, id, ht, ?_, (Option.some.inj h).symm⟩))
          simpa using ‹¬(w.store t.node id).isSome = true›
      · cases h
    · cases h
  | finish a =>
    simp only [step] at h
    split at h
    · rename_i t id ht
      split at h
      · exact .inr (.inr (.inr (.inl ⟨a, t, id, ht, ‹_›, (Option.some.inj h).symm⟩)))
      · cases h
    · cases h
  | crash a =>
    simp only [step] at h
    split at h
    · exact .inr (.inr (.inr (.inr ⟨a, (Option.some.inj h).symm⟩)))
    · cases h

/-- An accepted put keeps the invariant.  Distinct ids make the new object the only one
under its id on that node, and the store lacked the id, so the put is new to the log. -/
theorem safe_write {w : World ι κ} (hnodup : ids.Nodup) (hs : Safe ids P w) {a : Nat}
    {t : Attempt} {id : ι} (ht : w.target ids a = some (t, id))
    (hnone : w.store t.node id = none) :
    Safe ids P ((w.write t.node id (P t.index)).advance a t .stored) := by
  have hid := (target_spec ht).2
  have grow : ∀ {n i}, (w.store n i).isSome →
      (((w.write t.node id (P t.index)).advance a t .stored).store n i).isSome := by
    intro n i h
    rw [World.advance_store, World.write_store, if_neg]
    · exact h
    · rintro ⟨rfl, rfl⟩
      simp [hnone] at h
  refine ⟨?_, ?_, ?_, ?_, ?_⟩
  · intro node i id' c hi hc
    rw [World.advance_store, World.write_store] at hc
    split at hc
    · obtain ⟨-, rfl⟩ := ‹node = t.node ∧ id' = id›
      have hlt : i < ids.length := (List.getElem?_eq_some_iff.mp hi).1
      rw [List.getElem?_inj hlt hnodup (hi.trans hid.symm)]
      exact (Option.some.inj hc).symm
    · exact hs.own node i id' c hi hc
  · intro t' ht' hph
    rcases List.mem_or_eq_of_mem_set ht' with ht' | rfl
    · obtain ⟨id', h1, h2⟩ := hs.stored t' ht' hph
      exact ⟨id', h1, grow h2⟩
    · refine ⟨id, hid, ?_⟩
      simp [World.write_store]
  · intro i r hr
    exact ⟨(hs.kept i r hr).1, grow (hs.kept i r hr).2⟩
  · intro p hp
    rcases List.mem_append.mp hp with hp | hp
    · exact grow (hs.puts_held p hp)
    · simp only [List.mem_singleton] at hp
      subst hp
      simp [World.write_store]
  · refine List.Nodup.append hs.puts_nodup (List.nodup_singleton _) ?_
    intro p hp hp'
    simp only [List.mem_singleton] at hp'
    subst hp'
    simpa [hnone] using hs.puts_held _ hp

/-- One step keeps the invariant. -/
theorem safe_step (hnodup : ids.Nodup) {w w' : World ι κ} {act : Action}
    (hs : Safe ids P w) (h : step ids P w act = some w') : Safe ids P w' := by
  rcases step_cases h with ⟨i, node, -, rfl⟩ | ⟨a, t, id, p, ht, hp, rfl⟩ |
    ⟨a, t, id, ht, hnone, rfl⟩ | ⟨a, t, id, ht, hph, rfl⟩ | ⟨a, rfl⟩
  · exact safe_launch hs i node
  · exact safe_advance hs ht hp
  · exact safe_write hnodup hs ht hnone
  · exact safe_keep hs ht hph
  · exact safe_drop hs a

/-- Distinct, fresh ids make `Safe` hold in every reachable world. -/
theorem safe_reachable {store₀ : String → ι → Option κ} (hnodup : ids.Nodup)
    (hfresh : ∀ node, ∀ id ∈ ids, store₀ node id = none) {w : World ι κ}
    (hw : Reachable ids P store₀ w) : Safe ids P w := by
  induction hw with
  | init => exact safe_init hfresh
  | step _ h ih => exact safe_step hnodup ih h


end Steps

/-! ## What the driver returns -/

theorem mapM_eq_some_forall₂ {α β : Type} {f : α → Option β} :
    ∀ {l : List α} {ys : List β}, l.mapM f = some ys →
      List.Forall₂ (fun a b => f a = some b) l ys
  | [], ys, h => by
    simp only [List.mapM_nil] at h
    cases h
    exact .nil
  | a :: l, ys, h => by
    rw [List.mapM_cons] at h
    cases hfa : f a with
    | none => rw [hfa] at h; cases h
    | some b =>
      cases hl : l.mapM f with
      | none => rw [hfa, hl] at h; cases h
      | some bs =>
        rw [hfa, hl] at h
        cases h
        exact .cons hfa (mapM_eq_some_forall₂ hl)

/-- `collect()` hands the driver the kept results in partition order. -/
theorem collected_spec {w : World ι κ} {k : Nat} {pairs : List (ι × String)}
    (h : w.collected k = some pairs) :
    pairs.length = k ∧ ∀ i (hi : i < pairs.length), w.kept i = some pairs[i] := by
  have h₂ := mapM_eq_some_forall₂ h
  have hlen : pairs.length = k := by simpa using h₂.length_eq.symm
  refine ⟨hlen, fun i hi => ?_⟩
  have := h₂.get (by simpa [hlen] using hi) hi
  simpa using this

/-- `collect()` returns once every partition has a kept result. -/
theorem collected_isSome {w : World ι κ} {k : Nat} (h : ∀ i < k, (w.kept i).isSome) :
    (w.collected k).isSome := by
  suffices ∀ l : List Nat, (∀ i ∈ l, (w.kept i).isSome) → (l.mapM w.kept).isSome from
    this _ fun i hi => h i (List.mem_range.mp hi)
  intro l hl
  induction l with
  | nil => rfl
  | cons i l ih =>
    obtain ⟨r, hr⟩ := Option.isSome_iff_exists.mp (hl i (List.mem_cons_self _ _))
    obtain ⟨rs, hrs⟩ := Option.isSome_iff_exists.mp (ih fun j hj => hl j (List.mem_cons_of_mem _ hj))
    rw [List.mapM_cons, hr, hrs]
    rfl

/-- In a safe world the collected pairs carry exactly the pre-generated ids, in order. -/
theorem collected_ids {w : World ι κ} (hs : Safe ids P w) {pairs : List (ι × String)}
    (h : w.collected ids.length = some pairs) : pairs.map Prod.fst = ids := by
  obtain ⟨hlen, hkept⟩ := collected_spec h
  refine List.ext_getElem (by simp [hlen]) fun i h₁ h₂ => ?_
  have hi := (hs.kept i _ (hkept i (by simpa using h₁))).1
  rw [List.getElem?_eq_getElem h₂] at hi
  simpa using (Option.some.inj hi).symm

/-- In a safe world every collected pair names a node that holds that partition. -/
theorem collected_held {w : World ι κ} (hs : Safe ids P w) {k : Nat}
    {pairs : List (ι × String)} (h : w.collected k = some pairs) :
    ∀ q ∈ pairs, ∃ i, ids[i]? = some q.1 ∧ w.store q.2 q.1 = some (P i) := by
  intro q hq
  obtain ⟨i, hi, rfl⟩ := List.mem_iff_getElem.mp hq
  obtain ⟨hid, hheld⟩ := hs.kept i _ ((collected_spec h).2 i hi)
  obtain ⟨c, hc⟩ := Option.isSome_iff_exists.mp hheld
  exact ⟨i, hid, hc.trans (congrArg some (hs.own _ i _ c hid hc))⟩

theorem sortByIp_perm (pairs : List (ι × String)) : (sortByIp pairs).Perm pairs :=
  List.mergeSort_perm _ _

theorem ipLe_trans (a b c : ι × String) (hab : decide (a.2 ≤ b.2) = true)
    (hbc : decide (b.2 ≤ c.2) = true) : decide (a.2 ≤ c.2) = true :=
  decide_eq_true (le_trans (of_decide_eq_true hab) (of_decide_eq_true hbc))

theorem ipLe_total (a b : ι × String) : (decide (a.2 ≤ b.2) || decide (b.2 ≤ a.2)) = true := by
  rcases le_total a.2 b.2 with h | h
  · rw [decide_eq_true h, Bool.true_or]
  · rw [decide_eq_true h, Bool.or_true]

/-- The sorted pairs are in ip order. -/
theorem sortByIp_sorted (pairs : List (ι × String)) :
    (sortByIp pairs).Pairwise fun a b => a.2 ≤ b.2 :=
  (List.sorted_mergeSort ipLe_trans ipLe_total pairs).imp of_decide_eq_true

/-- The sort is stable: the pairs of one ip keep the order they were collected in. -/
theorem sortByIp_filter (pairs : List (ι × String)) (ip : String) :
    (sortByIp pairs).filter (·.2 = ip) = pairs.filter (·.2 = ip) := by
  have hsame : (pairs.filter (·.2 = ip)).Pairwise fun a b => decide (a.2 ≤ b.2) :=
    List.Pairwise.imp_of_mem (fun {a b} ha hb _ => by
      simp only [List.mem_filter, decide_eq_true_eq] at ha hb
      exact decide_eq_true (le_of_eq (ha.2.trans hb.2.symm)))
      (List.pairwise_of_forall fun _ _ => trivial)
  have hsub := List.sublist_mergeSort ipLe_trans ipLe_total hsame (List.filter_sublist pairs)
  have hsub' : (pairs.filter (·.2 = ip)).Sublist ((sortByIp pairs).filter (·.2 = ip)) := by
    have := hsub.filter (·.2 = ip)
    rwa [List.filter_filter, List.filter_congr (fun x _ => Bool.and_self _)] at this
  exact (hsub'.eq_of_length ((sortByIp_perm pairs).filter _).length_eq.symm).symm

/-- What `to_ray` returns from a safe world: the `RayPartition`s carry the object ids,
each once; each names a node whose store holds its partition's content; they are sorted
by ip; and within one ip they are in partition order. -/
theorem toRay_spec {w : World ι κ} (hs : Safe ids P w) {address : String}
    {parts : List (RayPartition ι)} (h : w.toRay ids.length address = some parts) :
    (parts.map (·.objectId)).Perm ids ∧
    (∀ p ∈ parts, ∃ i, ids[i]? = some p.objectId ∧
      w.store p.nodeIp p.objectId = some (P i)) ∧
    parts.Pairwise (fun p q => p.nodeIp ≤ q.nodeIp) ∧
    ∀ ip, ((parts.filter (·.nodeIp = ip)).map (·.objectId)).Sublist ids := by
  obtain ⟨pairs, hc, rfl⟩ := Option.map_eq_some'.mp h
  have hids := collected_ids hs hc
  refine ⟨?_, ?_, ?_, fun ip => ?_⟩
  · simpa [← hids, Function.comp_def] using (sortByIp_perm pairs).map Prod.fst
  · intro p hp
    obtain ⟨q, hq, rfl⟩ := List.mem_map.mp hp
    exact collected_held hs hc q ((sortByIp_perm pairs).subset hq)
  · exact List.pairwise_map.mpr ((sortByIp_sorted pairs).imp id)
  · have hf := congrArg (List.map Prod.fst) (sortByIp_filter pairs ip)
    simp only [List.filter_map, List.map_map, Function.comp_def] at hf ⊢
    rw [hf, ← hids]
    exact (List.filter_sublist _).map _

/-- Exactly-once safety of `to_ray`.  With distinct, fresh pre-generated ids, in every
reachable state of the job every object a store holds under `object_ids[i]` is partition
`i`'s content and no store has accepted two puts under one id.  Once every partition has a
kept result, `to_ray` returns: its `RayPartition`s carry each object id once, each names a
node whose store holds that partition, and they are sorted by ip, in partition order within
one ip. -/
theorem toRay_exactly_once [DecidableEq ι] {store₀ : String → ι → Option κ} (hnodup : ids.Nodup)
    (hfresh : ∀ node, ∀ id ∈ ids, store₀ node id = none) {w : World ι κ}
    (hw : Reachable ids P store₀ w) :
    (∀ node i id c, ids[i]? = some id → w.store node id = some c → c = P i) ∧
    w.puts.Nodup ∧
    ((∀ i < ids.length, (w.kept i).isSome) → ∀ address, ∃ parts,
      w.toRay ids.length address = some parts ∧
      (parts.map (·.objectId)).Perm ids ∧
      (∀ p ∈ parts, ∃ i, ids[i]? = some p.objectId ∧
        w.store p.nodeIp p.objectId = some (P i)) ∧
      parts.Pairwise (fun p q => p.nodeIp ≤ q.nodeIp) ∧
      ∀ ip, ((parts.filter (·.nodeIp = ip)).map (·.objectId)).Sublist ids) := by
  have hs := safe_reachable hnodup hfresh hw
  refine ⟨hs.own, hs.puts_nodup, fun hkept address => ?_⟩
  obtain ⟨parts, hparts⟩ := Option.isSome_iff_exists.mp
    (show (w.toRay ids.length address).isSome by simpa [World.toRay] using collected_isSome hkept)
  exact ⟨parts, hparts, toRay_spec hs hparts⟩

/-! ## A retry on another node -/

/-- The only task's first attempt puts its partition on `10.0.0.1` and dies before it
returns.  Spark retries it on `10.0.0.2`, whose store lacks the id. -/
def retryElsewhere : List Action :=
  [.launch 0 "10.0.0.1", .contains 0, .put 0, .crash 0,
   .launch 0 "10.0.0.2", .contains 0, .put 0, .finish 0]

/-- The world after `retryElsewhere`, for one partition whose content is `7`. -/
def retryWorld : World Nat Nat :=
  (run [0] (fun _ => 7) (World.init fun _ _ => none) retryElsewhere).getD
    (World.init fun _ _ => none)

theorem retryWorld_reachable : Reachable [0] (fun _ => 7) (fun _ _ => none) retryWorld :=
  run_reachable _ _ Reachable.init
    (rfl : run [0] (fun _ => 7) (World.init fun _ _ => none) retryElsewhere = some retryWorld)

theorem retryWorld_toRay :
    retryWorld.toRay 1 "plasma" = some [⟨0, "10.0.0.2", "plasma"⟩] := by
  have h : retryWorld.collected 1 = some [(0, "10.0.0.2")] := by decide
  simp only [World.toRay, h, Option.map_some', sortByIp, List.mergeSort_singleton, List.map]

/-- `toRay_exactly_once` applies to the retried job, whose only task has a kept result. -/
theorem toRay_exactly_once_after_retry :
    Reachable [0] (fun _ => 7) (fun _ _ => none) retryWorld ∧
    (∀ node (i : Nat) id c, [0][i]? = some id → retryWorld.store node id = some c → c = 7) ∧
    retryWorld.puts.Nodup ∧
    (∀ i < [0].length, (retryWorld.kept i).isSome) ∧
    ∀ address, ∃ parts, retryWorld.toRay [0].length address = some parts ∧
      (parts.map (·.objectId)).Perm [0] ∧
      (∀ p ∈ parts, ∃ i : Nat, [0][i]? = some p.objectId ∧
        retryWorld.store p.nodeIp p.objectId = some 7) ∧
      parts.Pairwise (fun p q => p.nodeIp ≤ q.nodeIp) ∧
      ∀ ip, ((parts.filter (·.nodeIp = ip)).map (·.objectId)).Sublist [0] := by
  have hkept : ∀ i < [0].length, (retryWorld.kept i).isSome := by decide
  obtain ⟨hown, hputs, hret⟩ := toRay_exactly_once (P := fun _ => 7) (by decide)
    (fun _ _ _ => rfl) retryWorld_reachable
  exact ⟨retryWorld_reachable, hown, hputs, hkept, hret hkept⟩

/-- The retried job returns one `RayPartition` on `10.0.0.2`, yet `10.0.0.1` still holds
a copy of the partition under the same id: nothing references it. -/
theorem toRay_retry_leaves_orphan_copy :
    Reachable [0] (fun _ => 7) (fun _ _ => none) retryWorld ∧
    retryWorld.toRay 1 "plasma" = some [⟨0, "10.0.0.2", "plasma"⟩] ∧
    retryWorld.store "10.0.0.1" 0 = some 7 :=
  ⟨retryWorld_reachable, retryWorld_toRay, by decide⟩

end Plasma
end OrcaXShards
