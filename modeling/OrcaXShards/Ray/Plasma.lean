import Mathlib.Data.String.Basic
import Mathlib.Data.List.Nodup

/-!
# The `to_ray` job over the nodes' plasma stores

`SparkXShards.to_ray` moves every partition of a Spark collection into the plasma
object store of the node that computes it.  The driver draws `object_ids`, one per
partition, before the job starts.  The task for partition `index` then runs
`put_to_plasma(ids)(index, iterator)`: it reads the partition, connects to its node's
store, checks `client.contains(target_id)`, puts the partition under `target_id` if the
store lacks it, and yields `(target_id, get_node_ip())`.

Spark may run any number of attempts of one task, on any nodes and interleaved in any
order: retries after a failure, and speculative copies of slow tasks.  An attempt can die
at any point, before or after its put.  A put under an id the store already holds raises,
and that attempt fails.  For each partition Spark keeps the result of the first attempt
that returns.  Once every partition has one, the driver sorts the kept pairs by ip and
builds one `RayPartition` from each.

The job is modelled here as a transition system.  A `World` holds every node's store,
the running attempts, the results Spark has kept, and (as ghost state) the log of puts
the stores accepted.  The state also keeps which attempt is at which step of
`f(index, iterator)`.
-/

namespace OrcaXShards
namespace Plasma

variable {ι κ : Type}

/-- How far one attempt of the task `f(index, iterator)` has got. -/
inductive Phase
  /-- It has read its partition and connected to its node's store. -/
  | connected
  /-- `client.contains(target_id)` answered that the store lacks the id. -/
  | absent
  /-- The store holds the id: the attempt put it there or found it there. -/
  | stored
  deriving DecidableEq, Repr

/-- One running attempt of the task for partition `index`, on the node with ip `node`. -/
structure Attempt where
  index : Nat
  node : String
  phase : Phase
  deriving DecidableEq, Repr

/-- The state of a `to_ray` job. -/
structure World (ι κ : Type) where
  /-- Each node's plasma store, by the node's ip. -/
  store : String → ι → Option κ
  /-- The attempts now running. -/
  attempts : List Attempt
  /-- The result Spark keeps for each partition: the first one an attempt returned. -/
  kept : Nat → Option (ι × String)
  /-- Every put a store accepted, as (node ip, object id), oldest first. -/
  puts : List (String × ι)

/-- What can happen next in a `to_ray` job. -/
inductive Action
  /-- Spark starts an attempt of task `index` on a node: a first try, a retry, or a
  speculative copy. -/
  | launch (index : Nat) (node : String)
  /-- The attempt at this position runs `client.contains(target_id)`. -/
  | contains (attempt : Nat)
  /-- The attempt at this position runs `client.put(res, target_id)`. -/
  | put (attempt : Nat)
  /-- The attempt at this position yields `(target_id, get_node_ip())` and returns. -/
  | finish (attempt : Nat)
  /-- The attempt at this position dies. -/
  | crash (attempt : Nat)
  deriving DecidableEq, Repr

/-- The job before any task has run, over the stores as they were. -/
def World.init (store : String → ι → Option κ) : World ι κ :=
  ⟨store, [], fun _ => none, []⟩

/-! ## Updates of a world -/

section Updates

variable (w : World ι κ)

/-- Start an attempt of task `i` on `node`. -/
def World.launch (i : Nat) (node : String) : World ι κ :=
  { w with attempts := w.attempts ++ [⟨i, node, .connected⟩] }

/-- Move the attempt at position `a` to a new phase. -/
def World.advance (a : Nat) (t : Attempt) (phase : Phase) : World ι κ :=
  { w with attempts := w.attempts.set a { t with phase } }

/-- Remove the attempt at position `a`: it returned or died. -/
def World.drop (a : Nat) : World ι κ :=
  { w with attempts := w.attempts.eraseIdx a }

/-- The store of `node` accepts `c` under `id`. -/
def World.write [DecidableEq ι] (node : String) (id : ι) (c : κ) : World ι κ :=
  { w with
    store := Function.update w.store node (Function.update (w.store node) id (some c))
    puts := w.puts ++ [(node, id)] }

/-- Spark records a result for partition `i`, unless it already keeps one. -/
def World.keep (i : Nat) (r : ι × String) : World ι κ :=
  { w with kept := Function.update w.kept i ((w.kept i).or (some r)) }

@[simp] theorem World.launch_store (i node) : (w.launch i node).store = w.store := rfl
@[simp] theorem World.launch_kept (i node) : (w.launch i node).kept = w.kept := rfl
@[simp] theorem World.launch_puts (i node) : (w.launch i node).puts = w.puts := rfl
@[simp] theorem World.launch_attempts (i node) :
    (w.launch i node).attempts = w.attempts ++ [⟨i, node, .connected⟩] := rfl
@[simp] theorem World.advance_store (a t p) : (w.advance a t p).store = w.store := rfl
@[simp] theorem World.advance_kept (a t p) : (w.advance a t p).kept = w.kept := rfl
@[simp] theorem World.advance_puts (a t p) : (w.advance a t p).puts = w.puts := rfl
@[simp] theorem World.advance_attempts (a t p) :
    (w.advance a t p).attempts = w.attempts.set a { t with phase := p } := rfl
@[simp] theorem World.drop_store (a) : (w.drop a).store = w.store := rfl
@[simp] theorem World.drop_kept (a) : (w.drop a).kept = w.kept := rfl
@[simp] theorem World.drop_puts (a) : (w.drop a).puts = w.puts := rfl
@[simp] theorem World.drop_attempts (a) : (w.drop a).attempts = w.attempts.eraseIdx a := rfl
@[simp] theorem World.write_attempts [DecidableEq ι] (n id c) :
    (w.write n id c).attempts = w.attempts := rfl
@[simp] theorem World.write_kept [DecidableEq ι] (n id c) :
    (w.write n id c).kept = w.kept := rfl
@[simp] theorem World.write_puts [DecidableEq ι] (n id c) :
    (w.write n id c).puts = w.puts ++ [(n, id)] := rfl
@[simp] theorem World.keep_store (i r) : (w.keep i r).store = w.store := rfl
@[simp] theorem World.keep_attempts (i r) : (w.keep i r).attempts = w.attempts := rfl
@[simp] theorem World.keep_puts (i r) : (w.keep i r).puts = w.puts := rfl

theorem World.write_store [DecidableEq ι] (n id c n' id') :
    (w.write n id c).store n' id' = if n' = n ∧ id' = id then some c else w.store n' id' := by
  by_cases hn : n' = n
  · subst hn
    by_cases hid : id' = id
    · simp [World.write, hid]
    · simp [World.write, hid]
  · simp [World.write, hn]

theorem World.keep_kept (i r j) :
    (w.keep i r).kept j = if j = i then (w.kept i).or (some r) else w.kept j := by
  by_cases h : j = i
  · subst h; simp [World.keep]
  · simp [World.keep, h]

end Updates

/-! ## Steps and runs -/

section Steps

variable [DecidableEq ι] (ids : List ι) (P : Nat → κ)

/-- The attempt at position `a`, with the id its task targets: `ids[index]`. -/
def World.target (w : World ι κ) (a : Nat) : Option (Attempt × ι) :=
  match w.attempts[a]? with
  | some t => ids[t.index]?.map fun id => (t, id)
  | none => none

/-- One step of the job.  `ids` are the pre-generated `object_ids`, and `P i` is what
every attempt of task `i` reads from its partition (`res = list(iterator)`).  An action
that cannot happen now gives `none`. -/
def step (w : World ι κ) : Action → Option (World ι κ)
  | .launch i node => if i < ids.length then some (w.launch i node) else none
  | .contains a =>
    match w.target ids a with
    | some (t, id) =>
      if t.phase = .connected then
        some (w.advance a t (if (w.store t.node id).isSome then .stored else .absent))
      else none
    | none => none
  | .put a =>
    match w.target ids a with
    | some (t, id) =>
      if t.phase = .absent then
        if (w.store t.node id).isSome then some (w.drop a)
        else some ((w.write t.node id (P t.index)).advance a t .stored)
      else none
    | none => none
  | .finish a =>
    match w.target ids a with
    | some (t, id) =>
      if t.phase = .stored then some ((w.keep t.index (id, t.node)).drop a) else none
    | none => none
  | .crash a => if a < w.attempts.length then some (w.drop a) else none

/-- The worlds a job can reach from stores `store₀`. -/
inductive Reachable (store₀ : String → ι → Option κ) : World ι κ → Prop
  | init : Reachable store₀ (World.init store₀)
  | step {w w' : World ι κ} {a : Action} :
      Reachable store₀ w → step ids P w a = some w' → Reachable store₀ w'

/-- Run a list of actions in order; `none` when one of them cannot happen. -/
def run : World ι κ → List Action → Option (World ι κ)
  | w, [] => some w
  | w, a :: rest => (step ids P w a).bind (run · rest)

theorem run_reachable {store₀ : String → ι → Option κ} :
    ∀ {w w' : World ι κ} {as : List Action},
      Reachable ids P store₀ w → run ids P w as = some w' → Reachable ids P store₀ w'
  | w, w', [], hw, h => by simp only [run, Option.some.injEq] at h; exact h ▸ hw
  | w, w', a :: rest, hw, h => by
    simp only [run] at h
    cases hs : step ids P w a with
    | none => simp [hs] at h
    | some w₁ =>
      simp only [hs, Option.bind_some] at h
      exact run_reachable (Reachable.step hw hs) h

end Steps

/-! ## What the driver returns -/

/-- One partition of the resulting `RayXShards`: `RayPartition(object_id, node_ip,
object_store_address)`. -/
structure RayPartition (ι : Type) where
  objectId : ι
  nodeIp : String
  objectStoreAddress : String
  deriving DecidableEq, Repr

/-- `object_id_node_ips.sort(key=lambda x: x[1])`: Python's sort is stable, so it is
the stable merge sort by ip. -/
def sortByIp (pairs : List (ι × String)) : List (ι × String) :=
  pairs.mergeSort fun a b => decide (a.2 ≤ b.2)

/-- The pairs `collect()` hands the driver once every partition has a kept result, in
partition order. -/
def World.collected (w : World ι κ) (k : Nat) : Option (List (ι × String)) :=
  (List.range k).mapM w.kept

/-- What `to_ray` returns from a world, for `k` partitions and the driver's store
address: nothing while a partition has no kept result. -/
def World.toRay (w : World ι κ) (k : Nat) (address : String) :
    Option (List (RayPartition ι)) :=
  (w.collected k).map fun pairs =>
    (sortByIp pairs).map fun p => ⟨p.1, p.2, address⟩

end Plasma
end OrcaXShards
