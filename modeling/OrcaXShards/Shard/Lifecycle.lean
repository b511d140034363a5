import OrcaXShards.Shard.Repartition
import OrcaXShards.Shard.Partition

/-!
# Persistence of collections over a sequence of calls

Every public call of `shard.py` on the driver is run for what it does to the objects, and a
sequence of calls is run one after another, each on the objects the previous one left,
whether it returned or raised.  Finalizers are not run.

Each call is first described by what it does to the flags of a collection it is given.
`cache()` pins the collection, `uncache()` and `to_ray()` unpin it, and a method that
successfully derives a collection from it demotes it through `_uncache()`.  New objects
start unpinned, persisted unless transient.  `exec_evolves` shows that every call's code
does exactly this, and the laws over whole runs follow from it by induction on the calls.

That an unpinned collection stays persisted until something is derived from it needs one
more condition.  An explicit `uncache()` unpersists a collection that was never
pinned, with nothing derived from it.
-/

namespace OrcaXShards

/-- A public call on the driver's collections, with its arguments; a collection is named by
its position among the driver's objects. -/
inductive PublicCall
  | partition (data : PyObj)
  | loadPickle (path : String) (minPartitions : Option Nat)
  | cache (x : Nat)
  | uncache (x : Nat)
  | transformShard (f : PyObj → Except PyError PyObj) (x : Nat)
  | repartition (x n : Nat)
  | partitionBy (x : Nat) (cols : PyObj) (numPartitions : Option Nat)
  | split (x : Nat)
  | zip (x y : Nat)
  | unique (x : Nat)
  | collect (x : Nat)
  | len (x : Nat)
  | getItem (x : Nat) (key : PyObj)
  | savePickle (x : Nat) (path : String)
  | toRay (x : Nat)

/-- A call run for what it does to the objects, its value dropped. -/
def Call.discard {α : Type} (m : Call α) : Call Unit := fun h => ((m h).1.map fun _ => (), (m h).2)

namespace PublicCall

/-- Run a public call. -/
def exec (env : Env) : PublicCall → Call Unit
  | .partition data => (XShards.partition env data).discard
  | .loadPickle path minPartitions => (XShards.loadPickle env path minPartitions).discard
  | .cache x => (SparkXShards.cache x).discard
  | .uncache x => (SparkXShards.uncache x).discard
  | .transformShard f x => (SparkXShards.transformShard env f x).discard
  | .repartition x n => (SparkXShards.repartition env x n).discard
  | .partitionBy x cols numPartitions =>
    (SparkXShards.partitionBy env x cols numPartitions).discard
  | .split x => (SparkXShards.split env x).discard
  | .zip x y => (SparkXShards.zip env x y).discard
  | .unique x => (SparkXShards.unique x).discard
  | .collect x => (SparkXShards.collect x).discard
  | .len x => (SparkXShards.len x).discard
  | .getItem x key => (SparkXShards.getItem env x key).discard
  | .savePickle x path => (SparkXShards.savePickle env x path).discard
  | .toRay x => (SparkXShards.toRay env x).discard

/-- Whether a call constructs transient collections: only `__getitem__` does. -/
def transient : PublicCall → Bool
  | .getItem _ _ => true
  | _ => false

end PublicCall

/-- The objects after a sequence of public calls. -/
def runCalls (env : Env) : List PublicCall → Heap → Heap
  | [], h => h
  | c :: cs, h => runCalls env cs (c.exec env h).2

/-! ## What a call does to the flags -/

namespace PublicCall

/-- Whether call `c` on the objects `h` returned. -/
def returns (env : Env) (c : PublicCall) (h : Heap) : Bool := (c.exec env h).1.toBool

/-- Whether `split()` of `x` returned components other than `x` itself. -/
def splitDerived (x : Nat) : Except PyError (List Nat) → Bool
  | .ok ts => ts != [x]
  | .error _ => false

/-- Whether call `c` on the objects `h` successfully produced a collection derived from `y`:
`transform_shard`, `repartition`, `partition_by` or `to_ray` on `y`, `split` of `y` into two
or more components, or `zip` with `y` as receiver or argument. -/
def derivesFrom (env : Env) (c : PublicCall) (h : Heap) (y : Nat) : Bool :=
  match c with
  | .transformShard _ x | .repartition x _ | .partitionBy x _ _ | .toRay x =>
    decide (x = y) && c.returns env h
  | .split x => decide (x = y) && splitDerived x (SparkXShards.split env x h).1
  | .zip x z => (decide (x = y) || decide (z = y)) && c.returns env h
  | _ => false

/-- What call `c` on the objects `h` does to the flags of an existing collection `y`:
`cache()` pins it, `uncache()` and `to_ray()` unpin it, a call that derives a collection
from it demotes it. -/
def effect (env : Env) (c : PublicCall) (h : Heap) (y : Nat) : Option SparkXShards.LifeEvent :=
  match c with
  | .cache x => if x = y ∧ c.returns env h = true then some .pin else none
  | .uncache x | .toRay x => if x = y ∧ c.returns env h = true then some .unpin else none
  | _ => if c.derivesFrom env h y then some .demote else none

end PublicCall

/-- A collection after an event, or as it was. -/
def SparkXShards.afterOpt (o : SparkXShards) : Option SparkXShards.LifeEvent → SparkXShards
  | some ev => o.after ev
  | none => o

/-- How a call changed the objects: each existing object got the event `E` names for it, and
each new one is unpinned, persisted unless `tr`. -/
structure Heap.Evolves (E : Nat → Option SparkXShards.LifeEvent) (tr : Bool) (h h' : Heap) :
    Prop where
  old : ∀ (y : Nat) (o : SparkXShards), h.objs[y]? = some o → h'.objs[y]? = some (o.afterOpt (E y))
  fresh : ∀ (y : Nat) (o : SparkXShards), h.objs.length ≤ y → h'.objs[y]? = some o →
    o.userCached = false ∧ o.isCached = !tr

namespace Heap.Evolves

variable {E E' : Nat → Option SparkXShards.LifeEvent} {tr : Bool} {h h' : Heap}

theorem refl (hE : ∀ y, E y = none) : Evolves E tr h h where
  old y o ho := by rw [hE y]; exact ho
  fresh y o hy ho := absurd (List.getElem?_eq_some_iff.mp ho).1 (by omega)

theorem append {os : List SparkXShards} (hE : ∀ y, E y = none)
    (hos : ∀ o ∈ os, o.userCached = false ∧ o.isCached = !tr) : Evolves E tr h ⟨h.objs ++ os⟩ where
  old y o ho := by
    rw [hE y, List.getElem?_append_left (List.getElem?_eq_some_iff.mp ho).1]
    exact ho
  fresh y o hy ho := by
    rw [List.getElem?_append_right hy] at ho
    exact hos o (List.getElem?_mem ho)

/-- Applying event `ev` to an existing object that had no event yet. -/
theorem set (he : Evolves E tr h h') {x : Nat} {o : SparkXShards} (ho : h.objs[x]? = some o)
    (hx : E x = none) {ev : SparkXShards.LifeEvent} (hx' : E' x = some ev)
    (hne : ∀ y, y ≠ x → E' y = E y) : Evolves E' tr h ⟨h'.objs.set x (o.after ev)⟩ where
  old y o' ho' := by
    by_cases hy : y = x
    · subst hy
      rw [ho] at ho'
      cases ho'
      have hx'' := he.old y o ho
      rw [hx] at hx''
      rw [hx', List.getElem?_set_self (List.getElem?_eq_some_iff.mp hx'').1]
      rfl
    · rw [List.getElem?_set_ne (Ne.symm hy), hne y hy]
      exact he.old y o' ho'
  fresh y o' hy ho' := by
    have hxy : x ≠ y := by
      have := (List.getElem?_eq_some_iff.mp ho).1
      omega
    rw [List.getElem?_set_ne hxy] at ho'
    exact he.fresh y o' hy ho'

theorem congr (he : Evolves E tr h h') (hE : ∀ y, E y = E' y) : Evolves E' tr h h' := by
  rwa [← funext hE]

end Heap.Evolves

/-! ## What each method does to the objects -/

namespace SparkXShards

variable {env : Env} {h : Heap}

theorem get_none {x : Nat} (hx : h.objs[x]? = none) :
    Call.get x h = (.error ⟨.exception, "no such object"⟩, h) := by
  simp [Call.get, hx]

/-- A constructed object is unpinned, persisted unless transient. -/
theorem init_fresh {rdd : Rdd PyObj} {tr : Bool} {o : SparkXShards}
    (hi : init env rdd tr = .ok o) : o.userCached = false ∧ o.isCached = !tr := by
  have key : ∀ (b : Bool) (n : Except PyError Nat) (s : SparkXShards),
      (if b then n.map (fun _ => s) else .ok s) = .ok o → o = s := by
    intro b n s hb
    cases b <;> cases n <;> simp_all [Except.map]
  obtain rfl := key _ _ _ hi
  exact ⟨rfl, rfl⟩

theorem construct_evolves (rdd : Rdd PyObj) (tr : Bool) :
    Heap.Evolves (fun _ => none) tr h (construct env rdd tr h).2 := by
  rw [construct_apply]
  cases hi : init env rdd tr with
  | error e => exact .refl fun _ => rfl
  | ok o => exact .append (fun _ => rfl) fun o' ho' => List.mem_singleton.mp ho' ▸ init_fresh hi

theorem query_heap {α : Type} (x : Nat) (q : SparkXShards → Except PyError α) :
    (query x q h).2 = h := by
  cases ho : h.objs[x]? with
  | none => simp [query, get_none ho]
  | some o => rw [query_apply ho]

/-- A method that raises with the objects as they were, or returns after applying event
`ev` to `x`, applies `ev` to `x` exactly when it returns. -/
theorem evolves_of_set {α : Type} {m : Call α} {x : Nat} {ev : LifeEvent} {tr : Bool}
    (hm : (∃ e, m h = (.error e, h)) ∨
      ∃ a o, h.objs[x]? = some o ∧ m h = (.ok a, ⟨h.objs.set x (o.after ev)⟩)) :
    Heap.Evolves (fun y => if x = y ∧ (m h).1.toBool = true then some ev else none) tr h (m h).2 := by
  rcases hm with ⟨e, he⟩ | ⟨a, o, ho, he⟩
  · rw [he]
    exact .refl fun _ => by simp [Except.toBool]
  · rw [he]
    exact (Heap.Evolves.refl fun _ => rfl).set ho rfl (by simp [Except.toBool])
      fun y hy => by simp [Except.toBool, Ne.symm hy]

theorem cache_cases (x : Nat) : (∃ e, cache x h = (.error e, h)) ∨
    ∃ a o, h.objs[x]? = some o ∧ cache x h = (.ok a, ⟨h.objs.set x (o.after .pin)⟩) := by
  cases ho : h.objs[x]? with
  | none => exact .inl ⟨⟨.exception, "no such object"⟩, by simp [cache, get_none ho]⟩
  | some o => exact .inr ⟨x, o, rfl, cache_apply ho⟩

theorem uncache_cases (x : Nat) : (∃ e, uncache x h = (.error e, h)) ∨
    ∃ a o, h.objs[x]? = some o ∧ uncache x h = (.ok a, ⟨h.objs.set x (o.after .unpin)⟩) := by
  cases ho : h.objs[x]? with
  | none => exact .inl ⟨⟨.exception, "no such object"⟩, by simp [uncache, get_none ho]⟩
  | some o => exact .inr ⟨x, o, rfl, uncache_apply ho⟩

/-- `to_ray()` raises before it touches the objects, or returns after `uncache()`. -/
theorem toRay_cases (x : Nat) : (∃ e, toRay env x h = (.error e, h)) ∨
    ∃ a o, h.objs[x]? = some o ∧ toRay env x h = (.ok a, ⟨h.objs.set x (o.after .unpin)⟩) := by
  cases ho : h.objs[x]? with
  | none => exact .inl ⟨⟨.exception, "no such object"⟩, by simp [toRay, get_none ho]⟩
  | some o =>
    cases hp : env.putToPlasma o.rdd with
    | error e => exact .inl ⟨e, by simp [toRay, get_of ho, hp]⟩
    | ok pairs =>
      exact .inr ⟨(Plasma.sortByIp pairs).map fun p => ⟨p.1, p.2, env.objectStoreAddress⟩, o, rfl,
        by simp [toRay, get_of ho, hp, uncache_apply ho]⟩

/-- `derive` demotes its source once it returns, and adds one persisted object. -/
theorem derive_evolves (x : Nat) (build : Rdd PyObj → Except PyError (Rdd PyObj)) :
    Heap.Evolves (fun y => if x = y ∧ (derive env x build h).1.toBool = true then some .demote
      else none) false h (derive env x build h).2 := by
  cases ho : h.objs[x]? with
  | none =>
    have hd : derive env x build h = (.error ⟨.exception, "no such object"⟩, h) := by
      simp [derive, get_none ho]
    rw [hd]
    exact .refl fun _ => by simp [Except.toBool]
  | some o =>
    rw [derive_apply ho]
    cases hb : build o.rdd >>= fun r => init env r false with
    | error e => exact .refl fun _ => by simp [Except.toBool]
    | ok t =>
      obtain ⟨r, -, hi⟩ := bind_eq_ok.mp hb
      exact (Heap.Evolves.append (fun _ => rfl) fun o' ho' =>
          List.mem_singleton.mp ho' ▸ init_fresh hi).set ho rfl (by simp [Except.toBool])
        fun y hy => by simp [Except.toBool, Ne.symm hy]

theorem getItem_evolves (x : Nat) (key : PyObj) :
    Heap.Evolves (fun _ => none) true h (getItem env x key h).2 := by
  cases ho : h.objs[x]? with
  | none =>
    have hg : getItem env x key h = (.error ⟨.exception, "no such object"⟩, h) := by
      simp [getItem, get_none ho]
    rw [hg]
    exact .refl fun _ => rfl
  | some o =>
    rw [getItem_apply ho]
    exact .append (fun _ => rfl) fun o' ho' => List.mem_singleton.mp ho' ▸ ⟨rfl, rfl⟩

/-- The components `split()` constructs, one after another: persisted objects are appended,
and on return there is one index per component. -/
theorem splitParts_cases (rdd : Rdd PyObj) : ∀ (is : List Nat) (h : Heap),
    ∃ os : List SparkXShards, (splitParts env rdd is h).2 = ⟨h.objs ++ os⟩ ∧
      (∀ o ∈ os, o.userCached = false ∧ o.isCached = true) ∧
      ∀ ts, (splitParts env rdd is h).1 = .ok ts → ts.length = is.length
  | [], h => ⟨[], by simp [splitParts], by simp, by simp [splitParts]⟩
  | i :: is, h => by
    simp only [splitParts, Call.bind_apply, construct_apply]
    cases hi : init env (rdd.map (getIndex i)) false with
    | error e => exact ⟨[], by simp, by simp, by simp⟩
    | ok o =>
      obtain ⟨os, hos, hfresh, hlen⟩ := splitParts_cases rdd is ⟨h.objs ++ [o]⟩
      have ho : ∀ o' ∈ o :: os, o'.userCached = false ∧ o'.isCached = true :=
        List.forall_mem_cons.mpr ⟨init_fresh hi, hfresh⟩
      rcases hs : splitParts env rdd is ⟨h.objs ++ [o]⟩ with ⟨r, h''⟩
      rw [hs] at hos hlen
      cases hos
      cases r with
      | error e => exact ⟨o :: os, by simp [hs], ho, by simp [hs]⟩
      | ok ts => exact ⟨o :: os, by simp [hs], ho, by simpa [hs] using hlen ts rfl⟩

/-- Everything `split()` can do to the objects: raise before touching them, return the
collection itself, or construct components, raising partway or returning them after
demoting the source. -/
theorem split_cases (x : Nat) {o : SparkXShards} (ho : h.objs[x]? = some o) :
    (∃ e, split env x h = (.error e, h)) ∨ split env x h = (.ok [x], h) ∨
    ∃ os : List SparkXShards, (∀ o' ∈ os, o'.userCached = false ∧ o'.isCached = true) ∧
      ((∃ e, split env x h = (.error e, ⟨h.objs ++ os⟩)) ∨
        ∃ ts, ts ≠ [x] ∧ split env x h = (.ok ts, ⟨(h.objs ++ os).set x (o.after .demote)⟩)) := by
  simp only [split, Call.bind_apply, get_of ho, Call.lift_apply]
  cases (o.rdd.map fun d => .ok (splitLength d)).collect with
  | error e => exact .inl ⟨e, rfl⟩
  | ok lens =>
    cases lens with
    | nil => exact .inl ⟨_, rfl⟩
    | cons m rest =>
      simp only
      split_ifs with hc h1
      · exact .inl ⟨_, rfl⟩
      · obtain ⟨os, hos, hfresh, hlen⟩ := @splitParts_cases env o.rdd (List.range m) h
        refine .inr (.inr ⟨os, hfresh, ?_⟩)
        rcases hs : splitParts env o.rdd (List.range m) h with ⟨r, h''⟩
        rw [hs] at hos hlen
        cases hos
        cases r with
        | error e => exact .inl ⟨e, by simp [hs]⟩
        | ok ts =>
          have hx : (h.objs ++ os)[x]? = some o := by
            rw [List.getElem?_append_left (List.getElem?_eq_some_iff.mp ho).1]
            exact ho
          refine .inr ⟨ts, fun hts => ?_, ?_⟩
          · have := hlen ts rfl
            simp only [hts, List.length_singleton, List.length_range] at this
            omega
          · simp only [hs, Call.bind_apply]
            rw [uncacheInternal_apply hx]
            rfl
      · exact .inr (.inl rfl)

/-- Everything `zip` can do to the objects: raise before touching them, or add the zipped
collection and demote both sources, `other` first. -/
theorem zip_cases (x z : Nat) : (∃ e, zip env x z h = (.error e, h)) ∨
    ∃ w ox oz, h.objs[x]? = some ox ∧ h.objs[z]? = some oz ∧
      w.userCached = false ∧ w.isCached = true ∧
      zip env x z h = (.ok h.objs.length,
        ⟨((h.objs ++ [w]).set z (oz.after .demote)).set x (ox.after .demote)⟩) := by
  cases hx : h.objs[x]? with
  | none => exact .inl ⟨⟨.exception, "no such object"⟩, by simp [zip, get_none hx]⟩
  | some ox =>
    cases hz : h.objs[z]? with
    | none => exact .inl ⟨⟨.exception, "no such object"⟩, by simp [zip, get_of hx, get_none hz]⟩
    | some oz =>
      by_cases hk : ox.rdd.numPartitions = oz.rdd.numPartitions
      · cases hr : ox.rdd.zip oz.rdd with
        | error e =>
          exact .inl ⟨⟨.valueError, zipMismatchMsg⟩,
            by simp [zip, get_of hx, get_of hz, hk, Call.tryCatch, hr]⟩
        | ok r =>
          rw [zip_apply hx hz hk hr]
          cases hi : init env (r.relabel fun p => .tuple [p.1, p.2]) false with
          | error e => exact .inl ⟨_, rfl⟩
          | ok w => exact .inr ⟨w, ox, oz, rfl, rfl, (init_fresh hi).1, (init_fresh hi).2, rfl⟩
      · exact .inl ⟨_, zip_count_ne hx hz hk⟩

theorem split_evolves (x : Nat) :
    Heap.Evolves (fun y => if x = y ∧ PublicCall.splitDerived x (split env x h).1 = true then
      some .demote else none) false h (split env x h).2 := by
  cases ho : h.objs[x]? with
  | none =>
    have hs : split env x h = (.error ⟨.exception, "no such object"⟩, h) := by
      simp [split, get_none ho]
    rw [hs]
    exact .refl fun _ => by simp [PublicCall.splitDerived]
  | some o =>
    rcases split_cases x ho with ⟨e, he⟩ | he | ⟨os, hfresh, ⟨e, he⟩ | ⟨ts, hts, he⟩⟩ <;> rw [he]
    · exact .refl fun _ => by simp [PublicCall.splitDerived]
    · exact .refl fun _ => by simp [PublicCall.splitDerived]
    · exact .append (fun _ => by simp [PublicCall.splitDerived]) hfresh
    · exact (Heap.Evolves.append (fun _ => rfl) hfresh).set ho rfl
        (by simp [PublicCall.splitDerived, hts]) fun y hy => by simp [Ne.symm hy]

theorem zip_evolves (x z : Nat) :
    Heap.Evolves (fun y => if (x = y ∨ z = y) ∧ (zip env x z h).1.toBool = true then
      some .demote else none) false h (zip env x z h).2 := by
  rcases zip_cases x z with ⟨e, he⟩ | ⟨w, ox, oz, hx, hz, hw₁, hw₂, he⟩ <;> rw [he]
  · exact .refl fun _ => by simp [Except.toBool]
  have happ : Heap.Evolves (fun _ => none) false h ⟨h.objs ++ [w]⟩ :=
    .append (fun _ => rfl) fun o' ho' => List.mem_singleton.mp ho' ▸ ⟨hw₁, hw₂⟩
  by_cases hxz : x = z
  · subst hxz
    obtain rfl : oz = ox := Option.some.inj (hz.symm.trans hx)
    rw [List.set_set]
    exact happ.set hx rfl (by simp [Except.toBool]) fun y hy => by simp [Except.toBool, Ne.symm hy]
  · have hz' : Heap.Evolves (fun y => if z = y then some .demote else none) false h
        ⟨(h.objs ++ [w]).set z (oz.after .demote)⟩ :=
      happ.set hz rfl (by simp) fun y hy => by simp [Ne.symm hy]
    exact hz'.set hx (by simp [Ne.symm hxz]) (by simp [Except.toBool])
      fun y hy => by simp [Except.toBool, Ne.symm hy]

end SparkXShards

theorem XShards.partition_evolves {env : Env} {h : Heap} (data : PyObj) :
    Heap.Evolves (fun _ => none) false h (XShards.partition env data h).2 := by
  simp only [XShards.partition, Call.bind_apply, Call.lift_apply]
  cases partitionRdd env data with
  | error e => exact .refl fun _ => rfl
  | ok rdd => exact SparkXShards.construct_evolves rdd false

@[simp] theorem Call.discard_toBool {α : Type} (m : Call α) (h : Heap) :
    (m.discard h).1.toBool = (m h).1.toBool := by
  simp only [Call.discard]
  cases (m h).1 <;> rfl

namespace PublicCall

open SparkXShards in
/-- Every public call does to the objects what `effect` says: the code refines the
description of the calls by their events. -/
theorem exec_evolves (env : Env) (c : PublicCall) (h : Heap) :
    Heap.Evolves (c.effect env h) c.transient h (c.exec env h).2 := by
  cases c with
  | partition data =>
    exact (XShards.partition_evolves data).congr fun y => by simp [effect, derivesFrom]
  | loadPickle path minPartitions =>
    exact (construct_evolves _ false).congr fun y => by simp [effect, derivesFrom]
  | cache x => exact (evolves_of_set (cache_cases x)).congr fun y => by simp [effect, returns, exec]
  | uncache x =>
    exact (evolves_of_set (uncache_cases x)).congr fun y => by simp [effect, returns, exec]
  | transformShard _ x | repartition x _ | partitionBy x _ _ =>
    exact (derive_evolves x _).congr fun y => by
      simp [effect, derivesFrom, returns, exec, SparkXShards.transformShard,
        SparkXShards.repartition, SparkXShards.partitionBy]
  | split x => exact (split_evolves x).congr fun y => by simp [effect, derivesFrom]
  | zip x z => exact (zip_evolves x z).congr fun y => by simp [effect, derivesFrom, returns, exec]
  | getItem x key => exact (getItem_evolves x key).congr fun y => by simp [effect, derivesFrom]
  | unique x | collect x | len x | savePickle x _ =>
    rw [show (exec env _ h).2 = h by
      simp only [exec, Call.discard, SparkXShards.unique, SparkXShards.collect, SparkXShards.len,
        SparkXShards.savePickle, query_heap]]
    exact .refl fun y => by simp [effect, derivesFrom]
  | toRay x => exact (evolves_of_set (toRay_cases x)).congr fun y => by simp [effect, returns, exec]

end PublicCall

/-! ## Whole runs -/

/-- Whether a call of `cs`, run from the objects `h`, successfully produced a collection
derived from `y`. -/
def derivedIn (env : Env) : List PublicCall → Heap → Nat → Bool
  | [], _, _ => false
  | c :: cs, h, y => c.derivesFrom env h y || derivedIn env cs (c.exec env h).2 y

namespace PublicCall

variable {env : Env} {h : Heap}

/-- Only `uncache()` and `to_ray()` of a collection unpin it. -/
theorem effect_ne_unpin {c : PublicCall} {x : Nat} (hu : c ≠ .uncache x) (ht : c ≠ .toRay x) :
    c.effect env h x ≠ some .unpin := by
  cases c <;> simp_all [effect]

/-- The events other than unpinning keep a pinned collection pinned and persisted. -/
theorem afterOpt_pinned {o : SparkXShards} (hu : o.userCached = true) (hc : o.isCached = true)
    {ev : Option SparkXShards.LifeEvent} (hev : ev ≠ some .unpin) :
    (o.afterOpt ev).userCached = true ∧ (o.afterOpt ev).isCached = true := by
  rcases ev with _ | _ | _ | _ <;> simp_all [SparkXShards.afterOpt, SparkXShards.after]

/-- On an unpinned collection, a call other than `cache()` or `uncache()` of it leaves it
unpinned, and unpersists it exactly when it derives a collection from it. -/
theorem effect_isSome {c : PublicCall} {y : Nat} (hc : c ≠ .cache y) (hun : c ≠ .uncache y) :
    (c.effect env h y).isSome = c.derivesFrom env h y := by
  cases c <;> simp_all [effect, derivesFrom, apply_ite Option.isSome]

theorem afterOpt_effect_unpinned {c : PublicCall} {y : Nat} {o : SparkXShards}
    (hu : o.userCached = false) (hc : c ≠ .cache y) (hun : c ≠ .uncache y) :
    (o.afterOpt (c.effect env h y)).userCached = false ∧
      (o.afterOpt (c.effect env h y)).isCached = (o.isCached && !c.derivesFrom env h y) := by
  have hsome := @effect_isSome env h _ _ hc hun
  have hpin : c.effect env h y ≠ some .pin := by cases c <;> simp_all [effect]
  cases he : c.effect env h y with
  | none =>
    rw [he] at hsome
    simp [SparkXShards.afterOpt, hu, ← hsome]
  | some ev =>
    rw [he] at hsome hpin
    cases ev <;> simp_all [SparkXShards.afterOpt, SparkXShards.after]

/-- A call that raises applies no event. -/
theorem effect_of_raise {c : PublicCall} {e : PyError} (he : (c.exec env h).1 = .error e)
    (y : Nat) : c.effect env h y = none := by
  have hr : c.returns env h = false := by simp [returns, he, Except.toBool]
  cases c with
  | split x =>
    simp only [exec, Call.discard] at he
    have hd : splitDerived x (SparkXShards.split env x h).1 = false := by
      cases hs : (SparkXShards.split env x h).1 <;> simp_all [splitDerived, Except.map]
    simp [effect, derivesFrom, hd]
  | _ => simp_all [effect, derivesFrom]

/-- A collection pinned and persisted stays so over calls that neither `uncache()` nor
`to_ray()` it. -/
theorem runCalls_pinned : ∀ (cs : List PublicCall) (h : Heap) (x : Nat) (o : SparkXShards),
    h.objs[x]? = some o → o.userCached = true → o.isCached = true →
    (∀ c ∈ cs, c ≠ .uncache x ∧ c ≠ .toRay x) →
    ∃ o', (runCalls env cs h).objs[x]? = some o' ∧ o'.userCached = true ∧ o'.isCached = true
  | [], _, _, o, ho, hu, hc, _ => ⟨o, ho, hu, hc⟩
  | c :: cs, h, x, o, ho, hu, hc, hcs => by
    obtain ⟨hun, hray⟩ := hcs c (List.mem_cons_self _ _)
    obtain ⟨hu₁, hc₁⟩ := afterOpt_pinned hu hc (@effect_ne_unpin env h _ _ hun hray)
    exact runCalls_pinned cs _ x _ ((exec_evolves env c h).old x o ho) hu₁ hc₁
      fun c' hc' => hcs c' (List.mem_cons_of_mem _ hc')

/-- An unpinned collection on which neither `cache()` nor `uncache()` is called stays
unpinned, and is persisted exactly while nothing has been derived from it. -/
theorem runCalls_unpinned : ∀ (cs : List PublicCall) (h : Heap) (y : Nat) (o : SparkXShards),
    h.objs[y]? = some o → o.userCached = false →
    (∀ c ∈ cs, c ≠ .cache y ∧ c ≠ .uncache y) →
    ∃ o', (runCalls env cs h).objs[y]? = some o' ∧ o'.userCached = false ∧
      o'.isCached = (o.isCached && !derivedIn env cs h y)
  | [], _, _, o, ho, hu, _ => ⟨o, ho, hu, by simp [derivedIn]⟩
  | c :: cs, h, y, o, ho, hu, hcs => by
    obtain ⟨hc, hun⟩ := hcs c (List.mem_cons_self _ _)
    obtain ⟨hu₁, hc₁⟩ := @afterOpt_effect_unpinned env h _ _ _ hu hc hun
    obtain ⟨o', ho', hu', hc'⟩ := runCalls_unpinned cs _ y _ ((exec_evolves env c h).old y o ho)
      hu₁ fun c' hc' => hcs c' (List.mem_cons_of_mem _ hc')
    refine ⟨o', ho', hu', ?_⟩
    rw [hc', hc₁, derivedIn, Bool.not_or, Bool.and_assoc]

end PublicCall

/-- The persistence laws of `shard.py` over any sequence of public calls. -/
structure PersistenceLaws (env : Env) : Prop where
  /-- Once `cache()` returns, the collection is pinned and persisted, and stays so until
  `uncache()` or `to_ray()` is called on it. -/
  cached : ∀ (h : Heap) (x : Nat) (cs : List PublicCall), x < h.objs.length →
    (∀ c ∈ cs, c ≠ .uncache x ∧ c ≠ .toRay x) →
    ∃ o, (runCalls env (.cache x :: cs) h).objs[x]? = some o ∧
      o.userCached = true ∧ o.isCached = true
  /-- A collection that a call constructs is not pinned, and is persisted unless the call is
  `__getitem__`.  While neither `cache()` nor `uncache()` is called on it, it stays
  unpinned, and a non-transient one stays persisted exactly until a call successfully
  produces a collection derived from it. -/
  constructed : ∀ (h : Heap) (c : PublicCall) (cs : List PublicCall) (y : Nat),
    h.objs.length ≤ y → y < (c.exec env h).2.objs.length →
    (∀ c' ∈ cs, c' ≠ .cache y ∧ c' ≠ .uncache y) →
    ∃ o, (runCalls env (c :: cs) h).objs[y]? = some o ∧ o.userCached = false ∧
      o.isCached = (!c.transient && !derivedIn env cs (c.exec env h).2 y)
  /-- A call that raises leaves every collection that existed before it as it was. -/
  raises : ∀ (h : Heap) (c : PublicCall) (e : PyError), (c.exec env h).1 = .error e →
    ∀ (y : Nat) (o : SparkXShards), h.objs[y]? = some o → (c.exec env h).2.objs[y]? = some o

/-- Every run of public calls keeps the persistence laws. -/
theorem persistence_laws (env : Env) : PersistenceLaws env where
  cached h x cs hx hcs := by
    have hc : ((PublicCall.cache x).exec env h).2 = ⟨h.objs.set x (h.objs[x].after .pin)⟩ := by
      rw [show ((PublicCall.cache x).exec env h).2 = (SparkXShards.cache x h).2 from rfl,
        SparkXShards.cache_apply (List.getElem?_eq_getElem hx)]
    exact PublicCall.runCalls_pinned cs _ x (h.objs[x].after .pin)
      (by rw [hc]; exact List.getElem?_set_self hx) rfl rfl hcs
  constructed h c cs y hy hy' hcs := by
    have ho := List.getElem?_eq_getElem hy'
    obtain ⟨hu, hc⟩ := (PublicCall.exec_evolves env c h).fresh y _ hy ho
    obtain ⟨o', ho', hu', hc'⟩ := PublicCall.runCalls_unpinned cs _ y _ ho hu hcs
    exact ⟨o', ho', hu', by rw [hc', hc]⟩
  raises h c e he y o ho := by
    have hy := (PublicCall.exec_evolves env c h).old y o ho
    rwa [PublicCall.effect_of_raise he] at hy

/-- An explicit `uncache()` unpersists a loaded collection that was never pinned and from
which nothing was derived. -/
theorem uncache_unpersists_underived :
    (runCalls (Env.simple true) [.loadPickle "data" none, .uncache 0] ⟨[]⟩).objs[0]?.map
        (fun o => (o.userCached, o.isCached)) = some (false, false) ∧
      (PublicCall.loadPickle "data" none).transient = false ∧
      derivedIn (Env.simple true) [.uncache 0]
        ((PublicCall.loadPickle "data" none).exec (Env.simple true) ⟨[]⟩).2 0 = false :=
  ⟨rfl, rfl, rfl⟩

end OrcaXShards
