import OrcaXShards.Spark.Rdd
import OrcaXShards.Ray.Plasma

/-!
# `SparkXShards` objects on the driver

A `SparkXShards` holds an RDD and two flags: whether the RDD is persisted
(`rdd.is_cached`) and whether the user pinned the collection with `cache()`
(`user_cached`).  Python code holds references to these objects and methods update them in
place, so the driver's objects are modelled as a heap, and a method as a `Call`: a function
of the heap that returns a value or raises.  A raise keeps the updates made before it, as
in Python.

`Env` collects what the code reads from its surroundings: `OrcaContext._eager_mode`,
Spark's scheduling choices, Python's `hash`, the cluster's size, the file system, and for
the plasma job of `to_ray` the ids it draws, the stores as they are and what Spark and the
nodes do (`Env.putToPlasma` runs that job as `Plasma` models it).
-/

namespace OrcaXShards

/-- What `shard.py` reads from its surroundings. -/
structure Env where
  /-- `OrcaContext._eager_mode`: whether a new collection is computed at once. -/
  eagerMode : Bool
  sch : Scheduler
  hash : PyHash
  /-- `get_node_and_core_number()`. -/
  nodeNum : Nat
  coreNum : Nat
  /-- `sc.pickleFile(path, minPartitions)`. -/
  pickleFile : String → Option Nat → Rdd PyObj
  /-- Whether `rdd.saveAsPickleFile(path, batchSize)` can write `path`. -/
  canWrite : String → Bool
  /-- `ray_ctx.address_info["object_store_address"]`. -/
  objectStoreAddress : String
  /-- The ids `plasma.ObjectID.from_random()` draws for the `k` partitions of a `to_ray`
  job. -/
  objectIds : Nat → List String
  objectIds_length : ∀ k, (objectIds k).length = k
  /-- Every node's plasma store when a `to_ray` job starts, by the node's ip. -/
  plasmaStores : String → String → Option PyObj
  /-- What Spark and the nodes do in a `to_ray` job over `k` partitions: the attempts
  Spark starts, on which nodes, and how far each gets before it returns or dies. -/
  plasmaSchedule : Nat → List Plasma.Action
  /-- A schedule is one the job can follow, whatever the partitions hold. -/
  plasmaSchedule_runs : ∀ k (P : Nat → PyObj),
    (Plasma.run (objectIds k) P (Plasma.World.init plasmaStores) (plasmaSchedule k)).isSome

/-- A session on one node with two cores, under `Scheduler.simple`, with a hash that
sends every value to `0`, in eager or lazy mode.  Its node `10.0.0.1` runs the one task of
a `to_ray` job over one partition once, to the end; over more partitions Spark starts no
attempt. -/
def Env.simple (eager : Bool) : Env where
  eagerMode := eager
  sch := Scheduler.simple
  hash := ⟨fun _ => 0, fun _ _ _ => rfl⟩
  nodeNum := 1
  coreNum := 2
  pickleFile _ _ := Rdd.ofParts []
  canWrite _ := true
  objectStoreAddress := "/tmp/plasma"
  objectIds k := (List.range k).map toString
  objectIds_length _ := by simp
  plasmaStores _ _ := none
  plasmaSchedule k := if k = 1 then [.launch 0 "10.0.0.1", .contains 0, .put 0, .finish 0] else []
  plasmaSchedule_runs k _ := by
    dsimp only
    split
    · subst_vars; rfl
    · rfl

/-- What `res = list(iterator)` holds in task `i` of a `to_ray` job over computed partitions
`ps`: partition `i`'s elements. -/
def plasmaContent (ps : List (List PyObj)) (i : Nat) : PyObj := .list (ps.getD i [])

/-- `rdd.mapPartitionsWithIndex(put_to_plasma(object_ids)).collect()`: the job `Plasma`
models, over the partitions' elements, the ids drawn for them and the stores as they are,
along Spark's schedule; the kept (object id, node ip) pairs in partition order.  A job
that ends with a partition lacking a kept result is one Spark gave up on. -/
def Env.putToPlasma (env : Env) (r : Rdd PyObj) : Except PyError (List (String × String)) :=
  match r.computed with
  | .error e => .error e.onDriver
  | .ok ps =>
    match (Plasma.run (env.objectIds ps.length) (plasmaContent ps)
        (Plasma.World.init env.plasmaStores) (env.plasmaSchedule ps.length)).bind
        (·.collected ps.length) with
    | some pairs => .ok pairs
    | none => .error ⟨.py4jJavaError, "Job aborted due to stage failure"⟩

/-- A `SparkXShards` object. -/
structure SparkXShards where
  rdd : Rdd PyObj
  /-- `rdd.is_cached`: whether the RDD is marked persisted. -/
  isCached : Bool
  /-- `user_cached`: whether the user pinned the collection with `cache()`. -/
  userCached : Bool

/-- The driver's `SparkXShards` objects; a reference is a position. -/
structure Heap where
  objs : List SparkXShards

/-- A method call on the driver: it may update the objects and returns a value or
raises.  A raise keeps the updates made before it. -/
def Call (α : Type) : Type := Heap → Except PyError α × Heap

namespace Call

variable {α β : Type}

/-- Return a value. -/
def pure (a : α) : Call α := fun h => (.ok a, h)

/-- Run one call, then another on its result; a raise stops the sequence. -/
def bind (m : Call α) (f : α → Call β) : Call β := fun h =>
  match m h with
  | (.ok a, h') => f a h'
  | (.error e, h') => (.error e, h')

instance : Monad Call where
  pure := Call.pure
  bind := Call.bind

@[simp] theorem pure_apply (a : α) (h : Heap) : (Pure.pure a : Call α) h = (.ok a, h) := rfl

@[simp] theorem bind_apply (m : Call α) (f : α → Call β) (h : Heap) :
    (m >>= f) h = match m h with
      | (.ok a, h') => f a h'
      | (.error e, h') => (.error e, h') := rfl

/-- `raise e`. -/
def raise (e : PyError) : Call α := fun h => (.error e, h)

/-- A computation that touches no object. -/
def lift (r : Except PyError α) : Call α := fun h => (r, h)

/-- `try: m except Exception: handler`. -/
def tryCatch (m : Call α) (handler : PyError → Call α) : Call α := fun h =>
  match m h with
  | (.error e, h') => handler e h'
  | r => r

/-- The object a reference names. -/
def get (x : Nat) : Call SparkXShards := fun h =>
  match h.objs[x]? with
  | some o => (.ok o, h)
  | Option.none => (.error ⟨.exception, "no such object"⟩, h)

/-- Replace the object a reference names. -/
def set (x : Nat) (o : SparkXShards) : Call Unit := fun h => (.ok (), ⟨h.objs.set x o⟩)

/-- A new object, and the reference to it. -/
def alloc (o : SparkXShards) : Call Nat := fun h => (.ok h.objs.length, ⟨h.objs ++ [o]⟩)

@[simp] theorem raise_apply (e : PyError) (h : Heap) : (raise e : Call α) h = (.error e, h) :=
  rfl
@[simp] theorem lift_apply (r : Except PyError α) (h : Heap) : lift r h = (r, h) := rfl
@[simp] theorem alloc_apply (o : SparkXShards) (h : Heap) :
    alloc o h = (.ok h.objs.length, ⟨h.objs ++ [o]⟩) := rfl
@[simp] theorem set_apply (x : Nat) (o : SparkXShards) (h : Heap) :
    set x o h = (.ok (), ⟨h.objs.set x o⟩) := rfl

end Call

namespace SparkXShards

/-- `SparkXShards.__init__(rdd, transient)`: a non-transient collection persists its RDD
and, in eager mode, computes it at once (`self.compute()`), raising what the computation
raises. -/
def init (env : Env) (rdd : Rdd PyObj) (transient : Bool) : Except PyError SparkXShards :=
  let eager := if transient then false else env.eagerMode
  let self : SparkXShards := ⟨rdd, !transient, false⟩
  if eager then rdd.count.map fun _ => self else .ok self

/-- `SparkXShards(rdd, transient)` as a new object. -/
def construct (env : Env) (rdd : Rdd PyObj) (transient : Bool) : Call Nat := do
  let o ← Call.lift (init env rdd transient)
  Call.alloc o

/-- `cache()`: pin the collection and persist its RDD. -/
def cache (x : Nat) : Call Nat := do
  let o ← Call.get x
  Call.set x { o with userCached := true, isCached := true }
  pure x

/-- `uncache()`: unpin the collection and unpersist its RDD if it is persisted.  The
`Py4JError` the code catches there does not arise in the model. -/
def uncache (x : Nat) : Call Nat := do
  let o ← Call.get x
  Call.set x { o with userCached := false, isCached := false }
  pure x

/-- `_uncache()`: `uncache()` unless the user pinned the collection. -/
def uncacheInternal (x : Nat) : Call Unit := do
  let o ← Call.get x
  if !o.userCached then
    let _ ← uncache x
    pure ()
  else pure ()

/-- The shape of the methods that only read a collection: a computation on the object. -/
def query {α : Type} (x : Nat) (q : SparkXShards → Except PyError α) : Call α := do
  let self ← Call.get x
  Call.lift (q self)

/-- `is_cached()`. -/
def isCachedCall (x : Nat) : Call Bool := query x fun o => .ok o.isCached

/-- `num_partitions()`. -/
def numPartitions (x : Nat) : Call Nat := query x fun o => .ok o.rdd.numPartitions

/-- `collect()`. -/
def collect (x : Nat) : Call (List PyObj) := query x fun o => o.rdd.collect

/-- `compute()`: count the elements and return the collection. -/
def compute (x : Nat) : Call Nat := query x fun o => o.rdd.count.map fun _ => x

/-- The shape `transform_shard`, `repartition` and `partition_by` share: build an RDD
from the collection's, construct the new collection, then demote the source with
`_uncache()`. -/
def derive (env : Env) (x : Nat) (build : Rdd PyObj → Except PyError (Rdd PyObj)) :
    Call Nat := do
  let self ← Call.get x
  let rdd ← Call.lift (build self.rdd)
  let t ← construct env rdd false
  uncacheInternal x
  pure t

/-! ## What the methods do to a collection's flags -/

/-- What a method can do to the flags of a collection it is given. -/
inductive LifeEvent
  /-- `cache()`. -/
  | pin
  /-- `uncache()`. -/
  | unpin
  /-- `_uncache()`. -/
  | demote
  deriving DecidableEq, Repr

/-- The collection after an event. -/
def after (o : SparkXShards) : LifeEvent → SparkXShards
  | .pin => { o with userCached := true, isCached := true }
  | .unpin => { o with userCached := false, isCached := false }
  | .demote => if o.userCached then o else { o with userCached := false, isCached := false }

@[simp] theorem after_rdd (o : SparkXShards) (ev : LifeEvent) : (o.after ev).rdd = o.rdd := by
  cases ev with
  | demote => simp only [after]; split <;> rfl
  | _ => rfl

/-- `_uncache()` twice is `_uncache()` once. -/
theorem after_demote_demote (o : SparkXShards) :
    (o.after .demote).after .demote = o.after .demote := by
  cases hu : o.userCached <;> simp [after, hu]

/-! ## Spec lemmas of the shapes -/

theorem set_self_of_getElem? {α : Type} {l : List α} {i : Nat} {a : α} (h : l[i]? = some a) :
    l.set i a = l := by
  apply List.ext_getElem?
  intro j
  rw [List.getElem?_set]
  split
  · subst_vars
    simp [(List.getElem?_eq_some_iff.mp h).1, h]
  · rfl

variable {env : Env} {h : Heap} {x : Nat} {o : SparkXShards}

theorem get_of (ho : h.objs[x]? = some o) : Call.get x h = (.ok o, h) := by
  simp [Call.get, ho]

theorem uncache_apply (ho : h.objs[x]? = some o) :
    uncache x h = (.ok x, ⟨h.objs.set x (o.after .unpin)⟩) := by
  simp [uncache, get_of ho, after]

theorem cache_apply (ho : h.objs[x]? = some o) :
    cache x h = (.ok x, ⟨h.objs.set x (o.after .pin)⟩) := by
  simp [cache, get_of ho, after]

theorem uncacheInternal_apply (ho : h.objs[x]? = some o) :
    uncacheInternal x h = (.ok (), ⟨h.objs.set x (o.after .demote)⟩) := by
  cases hu : o.userCached <;>
    simp [uncacheInternal, uncache_apply ho, get_of ho, hu, after, set_self_of_getElem? ho]

theorem construct_apply (rdd : Rdd PyObj) (tr : Bool) :
    construct env rdd tr h = match init env rdd tr with
      | .ok o => (.ok h.objs.length, ⟨h.objs ++ [o]⟩)
      | .error e => (.error e, h) := by
  simp only [construct, Call.bind_apply, Call.lift_apply]
  cases init env rdd tr <;> rfl

theorem query_apply {α : Type} (ho : h.objs[x]? = some o) (q : SparkXShards → Except PyError α) :
    query x q h = (q o, h) := by
  simp only [query, Call.bind_apply, get_of ho, Call.lift_apply]

/-- `derive` either raises and leaves the heap as it was, or appends the new collection and
demotes its source. -/
theorem derive_apply (ho : h.objs[x]? = some o) (build : Rdd PyObj → Except PyError (Rdd PyObj)) :
    derive env x build h = match build o.rdd >>= fun r => init env r false with
      | .ok t => (.ok h.objs.length, ⟨(h.objs ++ [t]).set x (o.after .demote)⟩)
      | .error e => (.error e, h) := by
  have hx : x < h.objs.length := (List.getElem?_eq_some_iff.mp ho).1
  simp only [derive, Call.bind_apply, get_of ho, Call.lift_apply]
  cases build o.rdd with
  | error e => rfl
  | ok r =>
    simp only [construct_apply, bind, Except.bind]
    cases init env r false with
    | error e => rfl
    | ok t =>
      have ho' : (h.objs ++ [t])[x]? = some o := by rw [List.getElem?_append_left hx]; exact ho
      simp only [uncacheInternal_apply (h := ⟨h.objs ++ [t]⟩) ho']
      rfl

/-- The constructor accepts an RDD whose partitions compute, in either mode. -/
theorem init_of_computed {rdd : Rdd PyObj} {ps : List (List PyObj)} (hr : rdd.computed = .ok ps)
    (tr : Bool) : init env rdd tr = .ok ⟨rdd, !tr, false⟩ := by
  rw [Rdd.computed_eq_ok_iff] at hr
  subst hr
  simp only [init, Rdd.count_ofParts, Except.map, ite_self]

/-- In lazy mode, and for a transient collection, the constructor computes nothing. -/
theorem init_of_lazy {rdd : Rdd PyObj} {tr : Bool} (hl : env.eagerMode = false ∨ tr = true) :
    init env rdd tr = .ok ⟨rdd, !tr, false⟩ := by
  rcases hl with hl | rfl
  · simp [init, hl]
  · simp [init]

/-- In eager mode, the constructor of a collection whose RDD fails raises the task's error. -/
theorem init_of_eager {rdd : Rdd PyObj} {e : PyError} (he : env.eagerMode = true)
    (hr : rdd.computed = .error e) : init env rdd false = .error e.onDriver := by
  simp [init, he, Rdd.count_of_error hr, Except.map]

end SparkXShards

/-- Collection `x` holds an RDD whose partitions compute to `ps`. -/
def Heap.Computes (h : Heap) (x : Nat) (ps : List (List PyObj)) : Prop :=
  ∃ o, h.objs[x]? = some o ∧ o.rdd.computed = .ok ps

namespace Heap

variable {h : Heap} {x y : Nat} {ps : List (List PyObj)}

theorem Computes.append (hc : h.Computes y ps) (os : List SparkXShards) :
    Heap.Computes ⟨h.objs ++ os⟩ y ps := by
  obtain ⟨o, ho, hr⟩ := hc
  exact ⟨o, by rw [List.getElem?_append_left (List.getElem?_eq_some_iff.mp ho).1]; exact ho, hr⟩

theorem Computes.set_ne (hc : h.Computes y ps) (hxy : x ≠ y) (a : SparkXShards) :
    Heap.Computes ⟨h.objs.set x a⟩ y ps := by
  obtain ⟨o', ho', hr⟩ := hc
  exact ⟨o', by rw [List.getElem?_set_ne hxy]; exact ho', hr⟩

theorem Computes.set_after (hc : h.Computes y ps) {o : SparkXShards} (ho : h.objs[x]? = some o)
    (ev : SparkXShards.LifeEvent) : Heap.Computes ⟨h.objs.set x (o.after ev)⟩ y ps := by
  by_cases hxy : x = y
  · subst hxy
    obtain ⟨o', ho', hr⟩ := hc
    rw [ho] at ho'
    cases ho'
    exact ⟨o.after ev, List.getElem?_set_self (List.getElem?_eq_some_iff.mp ho).1, by simpa using hr⟩
  · exact hc.set_ne hxy _

theorem computes_last {o : SparkXShards} (hr : o.rdd.computed = .ok ps) :
    Heap.Computes ⟨h.objs ++ [o]⟩ h.objs.length ps :=
  ⟨o, by simp, hr⟩

end Heap

end OrcaXShards
