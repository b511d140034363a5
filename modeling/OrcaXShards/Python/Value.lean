import Mathlib

/-!
# Python values held in frames, series and arrays

The collections of `zoo.orca.data.shard` hold pandas frames, numpy arrays and plain
Python objects.  This module fixes the values their cells hold, Python's `==` on them,
which of them `hash` accepts, and the exceptions the model raises.

A float cell keeps its exact value as a rational; NaN and the infinities are outside the
model.  An unhashable cell is represented by a Python list.
-/

namespace OrcaXShards

/-- The classes of exception the modelled code raises or lets through. -/
inductive ExcKind
  | assertionError
  | valueError
  | typeError
  | keyError
  | indexError
  | attributeError
  /-- A bare `Exception(...)`, as `shard.py` raises for unsupported collections. -/
  | exception
  /-- A task failure: the driver sees a Python error raised on a worker as a
  `Py4JJavaError`. -/
  | py4jJavaError
  /-- The `ValueError` PySpark's `PairDeserializer` raises for two batches of a zipped
  partition that hold different numbers of items.  Whoever reads the partition raises it:
  the driver in `collect()`, the task in any job over the partition. -/
  | pairBatches
  deriving DecidableEq, Repr

/-- A raised exception with its message. -/
structure PyError where
  kind : ExcKind
  msg : String
  deriving DecidableEq, Repr

/-- How the driver sees the error a task raised on a worker. -/
def PyError.onDriver (e : PyError) : PyError := ⟨.py4jJavaError, e.msg⟩

/-- The error of a failed partition as the code that reads the partition raises it:
`PairDeserializer`'s as a `ValueError`, any other as it is. -/
def PyError.asRaised (e : PyError) : PyError :=
  if e.kind = .pairBatches then ⟨.valueError, e.msg⟩ else e

@[simp]
theorem PyError.onDriver_asRaised (e : PyError) : e.asRaised.onDriver = e.onDriver := by
  unfold PyError.asRaised
  split <;> rfl

/-- What a reader raises is a Python exception, not the mark of a reader's error. -/
theorem PyError.asRaised_kind_ne (e : PyError) : e.asRaised.kind ≠ .pairBatches := by
  unfold PyError.asRaised
  split
  · nofun
  · assumption

/-- A value held in one cell of a frame, a series or an array. -/
inductive Scalar where
  | none
  | bool (b : Bool)
  | int (n : Int)
  | float (x : ℚ)
  | str (s : String)
  /-- A Python list held as a cell value (an object column may hold one). -/
  | list (items : List Scalar)
  deriving Repr

/-- The numeric value of a `bool`, `int` or `float` cell; Python compares numbers by
value across the three types. -/
def Scalar.num? : Scalar → Option ℚ
  | .bool b => some (if b then 1 else 0)
  | .int n => some n
  | .float x => some x
  | _ => Option.none

mutual
/-- Python's `==` on cell values. -/
def Scalar.pyEq : Scalar → Scalar → Bool
  | .none, .none => true
  | .str a, .str b => a == b
  | .list xs, .list ys => Scalar.pyEqList xs ys
  | a, b => match a.num?, b.num? with
    | some x, some y => x == y
    | _, _ => false

/-- Python's `==` on two lists of cell values, item by item. -/
def Scalar.pyEqList : List Scalar → List Scalar → Bool
  | [], [] => true
  | x :: xs, y :: ys => x.pyEq y && Scalar.pyEqList xs ys
  | _, _ => false
end

/-- `hash` accepts every cell value but a list. -/
def Scalar.hashable : Scalar → Bool
  | .list _ => false
  | _ => true

/-- Python's `hash` on hashable cell values, as far as the model needs it: values that
are equal under `==` hash alike, which Python requires of `__hash__`. -/
structure PyHash where
  hash : Scalar → Int
  hash_congr : ∀ a b, a.pyEq b = true → hash a = hash b

/-- `pyspark.rdd.portable_hash` on a cell value: `None` hashes to `0`, a list raises. -/
def PyHash.portable (h : PyHash) : Scalar → Except PyError Int
  | .none => .ok 0
  | c => if c.hashable then .ok (h.hash c) else .error ⟨.typeError, "unhashable type: 'list'"⟩

/-- `portable_hash` on a hashable cell value. -/
def PyHash.portableOk (h : PyHash) : Scalar → Int
  | .none => 0
  | c => h.hash c

/-- Values equal under `==` hash alike, also where `hash` raises. -/
theorem PyHash.portableOk_congr (h : PyHash) {a b : Scalar} (hab : a.pyEq b = true) :
    h.portableOk a = h.portableOk b := by
  have hh := h.hash_congr a b hab
  cases a <;> cases b <;> simp_all [PyHash.portableOk, Scalar.pyEq, Scalar.num?]

/-- `portable_hash` of a hashable value does not raise. -/
theorem PyHash.portable_of_hashable (h : PyHash) {c : Scalar} (hc : c.hashable = true) :
    h.portable c = .ok (h.portableOk c) := by
  cases c <;> simp_all [PyHash.portable, PyHash.portableOk]

/-! ## Fallible computations -/

section Except

variable {ε α β : Type}

theorem bind_eq_ok {m : Except ε α} {f : α → Except ε β} {b : β} :
    m >>= f = .ok b ↔ ∃ a, m = .ok a ∧ f a = .ok b := by
  cases m <;> simp [bind, Except.bind]

theorem pure_eq_ok {a b : α} : (pure a : Except ε α) = .ok b ↔ a = b := by
  simp [pure, Except.pure]

theorem map_eq_ok {m : Except ε α} {f : α → β} {b : β} :
    m.map f = .ok b ↔ ∃ a, m = .ok a ∧ f a = b := by
  cases m <;> simp [Except.map]

/-- A list goes through a fallible function exactly when each item does. -/
theorem mapM_ok_iff_forall₂ {f : α → Except ε β} :
    ∀ {xs : List α} {ys : List β},
      xs.mapM f = .ok ys ↔ List.Forall₂ (fun x y => f x = .ok y) xs ys
  | [], ys => by
    rw [List.mapM_nil, pure_eq_ok]
    cases ys <;> simp
  | x :: xs, ys => by
    rw [List.mapM_cons]
    simp only [bind_eq_ok, pure_eq_ok]
    cases ys with
    | nil => simp
    | cons y ys =>
      rw [List.forall₂_cons, ← mapM_ok_iff_forall₂]
      constructor
      · rintro ⟨a, ha, as, has, rfl, rfl⟩
        exact ⟨ha, has⟩
      · rintro ⟨ha, has⟩
        exact ⟨y, ha, ys, has, rfl⟩

/-- A function that cannot fail goes through a list as `map` does. -/
theorem mapM_ok_map (f : α → β) (xs : List α) :
    xs.mapM (fun x => (.ok (f x) : Except ε β)) = .ok (xs.map f) :=
  mapM_ok_iff_forall₂.mpr (List.forall₂_map_right_iff.mpr (List.forall₂_same.mpr fun _ _ => rfl))

/-- A list mapped through a fallible function keeps its length. -/
theorem mapM_except_length {f : α → Except ε β} {xs : List α} {ys : List β}
    (h : xs.mapM f = .ok ys) : ys.length = xs.length :=
  (mapM_ok_iff_forall₂.mp h).length_eq.symm

/-- A fallible function that succeeds on every item, each result related to its item,
succeeds on the list, item by item. -/
theorem exists_mapM_ok_forall₂ {f : α → Except ε β} {R : α → β → Prop} :
    ∀ {xs : List α}, (∀ x ∈ xs, ∃ y, f x = .ok y ∧ R x y) →
      ∃ ys, xs.mapM f = .ok ys ∧ List.Forall₂ R xs ys
  | [], _ => ⟨[], rfl, .nil⟩
  | x :: xs, h => by
    obtain ⟨y, hy, hR⟩ := h x (List.mem_cons_self _ _)
    obtain ⟨ys, hys, hF⟩ := exists_mapM_ok_forall₂ fun x' hx' => h x' (List.mem_cons_of_mem _ hx')
    exact ⟨y :: ys, mapM_ok_iff_forall₂.mpr (.cons hy (mapM_ok_iff_forall₂.mp hys)), .cons hR hF⟩

/-- A fallible function that succeeds on every item succeeds on the list. -/
theorem exists_mapM_ok {f : α → Except ε β} {xs : List α}
    (h : ∀ x ∈ xs, ∃ y, f x = .ok y) : ∃ ys, xs.mapM f = .ok ys := by
  obtain ⟨ys, hys, -⟩ := exists_mapM_ok_forall₂ (R := fun _ _ => True) fun x hx =>
    (h x hx).imp fun _ hy => ⟨hy, trivial⟩
  exact ⟨ys, hys⟩

/-- A fallible function that succeeds on every item, each result with a property of its
position, succeeds on the list with that property at every position. -/
theorem exists_mapM_ok_getElem {f : α → Except ε β} {xs : List α} {P : Nat → β → Prop}
    (h : ∀ i (hi : i < xs.length), ∃ y, f xs[i] = .ok y ∧ P i y) :
    ∃ ys, xs.mapM f = .ok ys ∧ ys.length = xs.length ∧ ∀ i (hi : i < ys.length), P i ys[i] := by
  obtain ⟨ys, hys⟩ := exists_mapM_ok (f := f) fun x hx => by
    obtain ⟨i, hi, rfl⟩ := List.getElem_of_mem hx
    obtain ⟨y, hy, -⟩ := h i hi
    exact ⟨y, hy⟩
  have hF := mapM_ok_iff_forall₂.mp hys
  refine ⟨ys, hys, hF.length_eq.symm, fun i hi => ?_⟩
  obtain ⟨y, hy, hP⟩ := h i (hF.length_eq ▸ hi)
  have hget := hF.get (hF.length_eq ▸ hi) hi
  simp only [List.get_eq_getElem, hy, Except.ok.injEq] at hget
  exact hget ▸ hP

end Except

end OrcaXShards
