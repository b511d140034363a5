import OrcaXShards.Pandas.Frame

/-!
# The Python objects a collection holds

The elements of a `SparkXShards` are arbitrary Python objects: frames, arrays, series,
lists, tuples, dicts and plain values.  `shard.py` dispatches on their class name, asks
for their length, subscripts them, and in `XShards.partition` flattens and rebuilds nested
lists, tuples and dicts with `zoo.util.nest`.  This module models those operations on a
single inductive type of objects.

A dict is kept as its entries in the order `nest` visits its keys.  Its keys are
strings.
-/

namespace OrcaXShards

/-- A Python object. -/
inductive PyObj where
  | none
  | bool (b : Bool)
  | int (n : Int)
  | float (x : ℚ)
  | str (s : String)
  | list (xs : List PyObj)
  | tuple (xs : List PyObj)
  | dict (entries : List (String × PyObj))
  /-- A numpy scalar such as `numpy.int64(3)`, an element of a one-dimensional array. -/
  | npScalar (d : DType) (c : Scalar)
  | ndarray (a : NdArray)
  | frame (df : DataFrame)
  | series (s : Series)

namespace PyObj

/-- Modelled from the spec: `get_class_name` of `zoo.orca.data.utils`, the class name
`shard.py` dispatches on: the bare name for a builtin, the module path otherwise. -/
def className : PyObj → String
  | .none => "NoneType"
  | .bool _ => "bool"
  | .int _ => "int"
  | .float _ => "float"
  | .str _ => "str"
  | .list _ => "list"
  | .tuple _ => "tuple"
  | .dict _ => "dict"
  | .npScalar .int64 _ => "numpy.int64"
  | .npScalar .float64 _ => "numpy.float64"
  | .npScalar .bool _ => "numpy.bool_"
  | .npScalar .object _ => "object"
  | .ndarray _ => "numpy.ndarray"
  | .frame _ => "pandas.core.frame.DataFrame"
  | .series _ => "pandas.core.series.Series"

/-- `len(obj)`. -/
def len : PyObj → Except PyError Nat
  | .list xs => .ok xs.length
  | .tuple xs => .ok xs.length
  | .dict es => .ok es.length
  | .str s => .ok s.length
  | .ndarray a => a.len
  | .frame df => .ok df.rows.length
  | .series s => .ok s.values.length
  | _ => .error ⟨.typeError, "object has no len()"⟩

/-- `hasattr(obj, '__len__')`. -/
def hasLen : PyObj → Bool
  | .list _ | .tuple _ | .dict _ | .str _ | .ndarray _ | .frame _ | .series _ => true
  | _ => false

/-- `hasattr(obj, '__getitem__')`. -/
def hasGetItem : PyObj → Bool
  | .list _ | .tuple _ | .dict _ | .str _ | .ndarray _ | .frame _ | .series _ => true
  | _ => false

end PyObj

/-- The position a Python index `i` names in a sequence of length `n`, counting from the
end when negative. -/
def pyIndex (n : Nat) (i : Int) : Option Nat :=
  if 0 ≤ i ∧ i < n then some i.toNat
  else if -n ≤ i ∧ i < 0 then some (n + i).toNat
  else Option.none

mutual
/-- A cell value as the Python object it is. -/
def Scalar.toPyObj : Scalar → PyObj
  | .none => .none
  | .bool b => .bool b
  | .int n => .int n
  | .float x => .float x
  | .str s => .str s
  | .list items => .list (Scalar.toPyObjList items)

/-- Cell values as Python objects, one by one. -/
def Scalar.toPyObjList : List Scalar → List PyObj
  | [] => []
  | c :: cs => c.toPyObj :: Scalar.toPyObjList cs
end

/-- The element `list(a)` yields for a cell of a one-dimensional array of dtype `d`: a
numpy scalar, or the stored object itself for an object array. -/
def NdArray.element (d : DType) (c : Scalar) : PyObj :=
  if d = .object then c.toPyObj else .npScalar d c

/-- `list(a)`: the leading-axis rows of an array as Python objects. -/
def NdArray.toList (a : NdArray) : Except PyError (List PyObj) :=
  match a.shape with
  | [_] => .ok (a.cells.map (NdArray.element a.dtype))
  | _ => (a.rows).map fun rs => rs.map PyObj.ndarray

/-- The array numpy makes of one item of a list passed to `np.array`: an array as it is,
a scalar as a 0-d array of its own dtype.  Nested lists are outside the model. -/
def PyObj.toNdArray : PyObj → Except PyError NdArray
  | .ndarray a => .ok a
  | .npScalar d c => .ok ⟨d, [], [c], rfl⟩
  | .bool b => .ok ⟨.bool, [], [.bool b], rfl⟩
  | .int n => .ok ⟨.int64, [], [.int n], rfl⟩
  | .float x => .ok ⟨.float64, [], [.float x], rfl⟩
  | .none => .ok ⟨.object, [], [.none], rfl⟩
  | .str s => .ok ⟨.object, [], [.str s], rfl⟩
  | _ => .error ⟨.valueError, "nested sequences are outside the model"⟩

/-- `np.array(items)` for a list of Python objects. -/
def NdArray.ofItems (items : List PyObj) : Except PyError NdArray :=
  items.mapM PyObj.toNdArray >>= NdArray.ofRows

namespace PyObj

/-- `obj[key]`.  A string is indexed by code point; an integer key on a one-dimensional
array reads the element `list(a)` yields there, on a higher one the leading-axis row. -/
def getItem : PyObj → PyObj → Except PyError PyObj
  | .list xs, .int i => match pyIndex xs.length i with
    | some j => .ok (xs.getD j .none)
    | Option.none => .error ⟨.indexError, "list index out of range"⟩
  | .tuple xs, .int i => match pyIndex xs.length i with
    | some j => .ok (xs.getD j .none)
    | Option.none => .error ⟨.indexError, "tuple index out of range"⟩
  | .dict es, .str k => match es.find? (·.1 = k) with
    | some e => .ok e.2
    | Option.none => .error ⟨.keyError, k⟩
  | .str s, .int i => match pyIndex s.length i with
    | some j => .ok (.str (String.singleton (s.toList.getD j ' ')))
    | Option.none => .error ⟨.indexError, "string index out of range"⟩
  | .ndarray a, .int i => match a.shape with
    | [n] => match pyIndex n i with
      | some j => .ok (NdArray.element a.dtype (a.cells.getD j .none))
      | Option.none => .error ⟨.indexError, "index is out of bounds"⟩
    | _ => match a.rows, a.len with
      | .ok rs, .ok n => match pyIndex n i with
        | some j => .ok (.ndarray (rs.getD j a))
        | Option.none => .error ⟨.indexError, "index is out of bounds"⟩
      | _, _ => .error ⟨.indexError, "too many indices for array"⟩
  | .frame df, .str c => frameColumn df (.str c)
  | .frame df, .int c => frameColumn df (.int c)
  | .series s, .int i => match s.values[i.toNat]? with
    | some v => if 0 ≤ i then .ok v.toPyObj else .error ⟨.keyError, "negative label"⟩
    | Option.none => .error ⟨.keyError, "label not in the index"⟩
  | x, _ =>
    if x.hasGetItem then .error ⟨.typeError, "indices must be integers"⟩
    else .error ⟨.typeError, "object is not subscriptable"⟩
where
  /-- `df[label]`: the column as a series. -/
  frameColumn (df : DataFrame) (label : Label) : Except PyError PyObj :=
    match (df.schema.columns.zip df.schema.dtypes).findIdx? (·.1 = label) with
    | some j => .ok (.series ⟨df.schema.dtypes.getD j .object,
        df.rows.map fun r => r.getD j .none⟩)
    | Option.none => .error ⟨.keyError, "the column is not in the frame"⟩

end PyObj

namespace PyObj

/-- `iter(obj)`: the items `flatMap(lambda data: data)` and `list(data)` go through. -/
def iter : PyObj → Except PyError (List PyObj)
  | .list xs => .ok xs
  | .tuple xs => .ok xs
  | .dict es => .ok (es.map fun e => .str e.1)
  | .str s => .ok (s.toList.map fun c => .str (String.singleton c))
  | .ndarray a => a.toList
  | .series s => .ok (s.values.map Scalar.toPyObj)
  | .frame df => .ok (df.schema.columns.map fun
      | .int n => .int n
      | .str s => .str s)
  | _ => .error ⟨.typeError, "object is not iterable"⟩

/-- `a + b` on the objects a partition of the list branch of `repartition` holds. -/
def add : PyObj → PyObj → Except PyError PyObj
  | .list xs, .list ys => .ok (.list (xs ++ ys))
  | .tuple xs, .tuple ys => .ok (.tuple (xs ++ ys))
  | .str a, .str b => .ok (.str (a ++ b))
  | .int a, .int b => .ok (.int (a + b))
  | _, _ => .error ⟨.typeError, "unsupported operand type(s) for +"⟩

/-- The frame an element is, for `pd.concat`. -/
def asFrame : PyObj → Except PyError DataFrame
  | .frame df => .ok df
  | _ => .error ⟨.typeError, "only Series and DataFrame objs are valid"⟩

end PyObj

/-- `functools.reduce(f, items)` with no initial value. -/
def pyReduce {α : Type} (f : α → α → Except PyError α) : List α → Except PyError α
  | [] => .error ⟨.typeError, "reduce() of empty sequence with no initial value"⟩
  | x :: xs => xs.foldlM f x

/-! ## `zoo.util.nest` -/

mutual
/-- Modelled from the spec: `nest.flatten`, the leaves of a nesting of lists, tuples and
dicts from left to right; anything else is a leaf. -/
def PyObj.flatten : PyObj → List PyObj
  | .list xs => PyObj.flattenList xs
  | .tuple xs => PyObj.flattenList xs
  | .dict es => PyObj.flattenEntries es
  | x => [x]

/-- The leaves of a list of nestings. -/
def PyObj.flattenList : List PyObj → List PyObj
  | [] => []
  | x :: xs => x.flatten ++ PyObj.flattenList xs

/-- The leaves of a dict's entries. -/
def PyObj.flattenEntries : List (String × PyObj) → List PyObj
  | [] => []
  | (_, x) :: es => x.flatten ++ PyObj.flattenEntries es
end

mutual
/-- The nesting with every leaf `x` replaced by `f x`. -/
def PyObj.mapLeaves (f : PyObj → PyObj) : PyObj → PyObj
  | .list xs => .list (PyObj.mapLeavesList f xs)
  | .tuple xs => .tuple (PyObj.mapLeavesList f xs)
  | .dict es => .dict (PyObj.mapLeavesEntries f es)
  | x => f x

/-- `mapLeaves` over a list of nestings. -/
def PyObj.mapLeavesList (f : PyObj → PyObj) : List PyObj → List PyObj
  | [] => []
  | x :: xs => x.mapLeaves f :: PyObj.mapLeavesList f xs

/-- `mapLeaves` over a dict's entries. -/
def PyObj.mapLeavesEntries (f : PyObj → PyObj) :
    List (String × PyObj) → List (String × PyObj)
  | [] => []
  | (k, x) :: es => (k, x.mapLeaves f) :: PyObj.mapLeavesEntries f es
end

mutual
/-- Rebuild `structure` from the front of `flat`, returning what is left over. -/
def PyObj.packFront : PyObj → List PyObj → Except PyError (PyObj × List PyObj)
  | .list xs, flat => (PyObj.packFrontList xs flat).map fun r => (.list r.1, r.2)
  | .tuple xs, flat => (PyObj.packFrontList xs flat).map fun r => (.tuple r.1, r.2)
  | .dict es, flat => (PyObj.packFrontEntries es flat).map fun r => (.dict r.1, r.2)
  | _, [] => .error ⟨.valueError, "flat_sequence is shorter than the structure"⟩
  | _, y :: rest => .ok (y, rest)

/-- `packFront` over a list of nestings. -/
def PyObj.packFrontList : List PyObj → List PyObj → Except PyError (List PyObj × List PyObj)
  | [], flat => .ok ([], flat)
  | x :: xs, flat => match x.packFront flat with
    | .ok (y, rest) => (PyObj.packFrontList xs rest).map fun r => (y :: r.1, r.2)
    | .error e => .error e

/-- `packFront` over a dict's entries. -/
def PyObj.packFrontEntries :
    List (String × PyObj) → List PyObj →
      Except PyError (List (String × PyObj) × List PyObj)
  | [], flat => .ok ([], flat)
  | (k, x) :: es, flat => match x.packFront flat with
    | .ok (y, rest) => (PyObj.packFrontEntries es rest).map fun r => ((k, y) :: r.1, r.2)
    | .error e => .error e
end

/-- Modelled from the spec: `nest.pack_sequence_as(structure, flat_sequence)`, the
nesting of `structure` with its leaves taken in order from `flat_sequence`. -/
def PyObj.packSequenceAs (shape : PyObj) (flat : List PyObj) : Except PyError PyObj :=
  match shape.packFront flat with
  | .ok (r, []) => .ok r
  | .ok (_, _ :: _) => .error ⟨.valueError, "flat_sequence is longer than the structure"⟩
  | .error e => .error e

/-! The cases of `packFront`, by unfolding: its match splits on the sequence first. -/

section Unfold

variable (flat : List PyObj)

theorem PyObj.packFront_list (xs : List PyObj) : (PyObj.list xs).packFront flat =
    (PyObj.packFrontList xs flat).map fun r => (.list r.1, r.2) := by
  cases flat <;> rfl

theorem PyObj.packFront_tuple (xs : List PyObj) : (PyObj.tuple xs).packFront flat =
    (PyObj.packFrontList xs flat).map fun r => (.tuple r.1, r.2) := by
  cases flat <;> rfl

theorem PyObj.packFront_dict (es : List (String × PyObj)) : (PyObj.dict es).packFront flat =
    (PyObj.packFrontEntries es flat).map fun r => (.dict r.1, r.2) := by
  cases flat <;> rfl

theorem PyObj.packFrontList_cons (x : PyObj) (xs : List PyObj) :
    PyObj.packFrontList (x :: xs) flat = match x.packFront flat with
      | .ok (y, rest) => (PyObj.packFrontList xs rest).map fun r => (y :: r.1, r.2)
      | .error e => .error e := rfl

theorem PyObj.packFrontEntries_cons (k : String) (x : PyObj) (es : List (String × PyObj)) :
    PyObj.packFrontEntries ((k, x) :: es) flat = match x.packFront flat with
      | .ok (y, rest) => (PyObj.packFrontEntries es rest).map fun r => ((k, y) :: r.1, r.2)
      | .error e => .error e := rfl

end Unfold

mutual
/-- Packing a nesting's own leaves, each mapped, rebuilds the nesting with mapped leaves
and leaves the rest of the sequence. -/
theorem PyObj.packFront_flatten (f : PyObj → PyObj) :
    ∀ (x : PyObj) (rest : List PyObj),
      x.packFront (x.flatten.map f ++ rest) = .ok (x.mapLeaves f, rest)
  | .list xs, rest => by
    rw [PyObj.packFront_list, show (PyObj.list xs).flatten = PyObj.flattenList xs from rfl,
      PyObj.packFrontList_flatten f xs rest]
    rfl
  | .tuple xs, rest => by
    rw [PyObj.packFront_tuple, show (PyObj.tuple xs).flatten = PyObj.flattenList xs from rfl,
      PyObj.packFrontList_flatten f xs rest]
    rfl
  | .dict es, rest => by
    rw [PyObj.packFront_dict, show (PyObj.dict es).flatten = PyObj.flattenEntries es from rfl,
      PyObj.packFrontEntries_flatten f es rest]
    rfl
  | .none, _ | .bool _, _ | .int _, _ | .float _, _ | .str _, _ | .npScalar _ _, _
  | .ndarray _, _ | .frame _, _ | .series _, _ => rfl

theorem PyObj.packFrontList_flatten (f : PyObj → PyObj) :
    ∀ (xs : List PyObj) (rest : List PyObj),
      PyObj.packFrontList xs ((PyObj.flattenList xs).map f ++ rest) =
        .ok (PyObj.mapLeavesList f xs, rest)
  | [], rest => rfl
  | x :: xs, rest => by
    rw [show PyObj.flattenList (x :: xs) = x.flatten ++ PyObj.flattenList xs from rfl,
      List.map_append, List.append_assoc, PyObj.packFrontList_cons, PyObj.packFront_flatten f x]
    simp only
    rw [PyObj.packFrontList_flatten f xs rest]
    rfl

theorem PyObj.packFrontEntries_flatten (f : PyObj → PyObj) :
    ∀ (es : List (String × PyObj)) (rest : List PyObj),
      PyObj.packFrontEntries es ((PyObj.flattenEntries es).map f ++ rest) =
        .ok (PyObj.mapLeavesEntries f es, rest)
  | [], rest => rfl
  | (k, x) :: es, rest => by
    rw [show PyObj.flattenEntries ((k, x) :: es) = x.flatten ++ PyObj.flattenEntries es from rfl,
      List.map_append, List.append_assoc, PyObj.packFrontEntries_cons, PyObj.packFront_flatten f x]
    simp only
    rw [PyObj.packFrontEntries_flatten f es rest]
    rfl
end

/-- `pack_sequence_as(data, leaves)` with `data`'s own leaves mapped rebuilds `data` with
mapped leaves. -/
theorem PyObj.packSequenceAs_flatten (f : PyObj → PyObj) (x : PyObj) :
    x.packSequenceAs (x.flatten.map f) = .ok (x.mapLeaves f) := by
  have := PyObj.packFront_flatten f x []
  rw [List.append_nil] at this
  simp [PyObj.packSequenceAs, this]

end OrcaXShards
