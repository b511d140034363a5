import OrcaXShards.Python.Value

/-!
# numpy arrays along their leading axis

`shard.py` reshapes numpy arrays in `repartition` (with `list(a)`, `np.stack` and
`np.concatenate`) and cuts them in `XShards.partition` (with `np.array_split`).  Every
one of these works along axis 0.  An array is modelled as its dtype, its shape and its
cells in C order, with the size invariant carried by the structure.  The leading-axis
rows of an array of shape `(n,) + S` are the `n` consecutive blocks of `prod S` cells.

The casts follow numpy's element rules for the four dtypes the model distinguishes.  A
Python int beyond float64 precision is rounded to the nearest double, ties to even.
-/

namespace OrcaXShards

/-- The dtypes the model distinguishes; pandas keeps strings and mixed columns as
`object`. -/
inductive DType
  | int64
  | float64
  | bool
  | object
  deriving DecidableEq, Repr

/-- numpy's `result_type` of two dtypes. -/
def DType.promote (a b : DType) : DType :=
  if a = b then a
  else if a = .object ∨ b = .object then .object
  else if a = .float64 ∨ b = .float64 then .float64
  else .int64

/-- Whether a cell value is one that a column or an array of dtype `d` holds. -/
def Scalar.fits : DType → Scalar → Bool
  | .int64, .int n => decide (-2 ^ 63 ≤ n ∧ n < 2 ^ 63)
  | .float64, .float _ => true
  | .bool, .bool _ => true
  | .object, _ => true
  | _, _ => false

/-- The number of binary digits of `m`, for `m < 2 ^ fuel`. -/
def bitLength : Nat → Nat → Nat
  | 0, _ => 0
  | fuel + 1, m => if m = 0 then 0 else bitLength fuel (m / 2) + 1

/-- `float(n)`: the double nearest to `n`, ties to even.  Doubles carry 53 significant
bits, so integers beyond `2 ^ 53` may move. -/
def roundDouble (n : Int) : Int :=
  let m := n.natAbs
  let b := bitLength 1100 m
  if b ≤ 53 then n
  else
    let s := b - 53
    let q := m / 2 ^ s
    let r := m % 2 ^ s
    let q' := if 2 ^ (s - 1) < r ∨ (r = 2 ^ (s - 1) ∧ q % 2 = 1) then q + 1 else q
    n.sign * ((q' * 2 ^ s : Nat) : Int)

/-- Truncation toward zero, numpy's cast of a float to an integer. -/
def truncRat (x : ℚ) : Int := x.num.tdiv x.den

/-- `astype(d)` on one element.  Out of range, a float cast to int64 gives the value the
hardware gives, `-2 ^ 63`.  Casts the model has no value for (`None` to a number, a
string or a list to a number) raise. -/
def Scalar.astype : DType → Scalar → Except PyError Scalar
  | .object, c => .ok c
  | .int64, .int n =>
    if Scalar.fits .int64 (.int n) then .ok (.int n)
    else .error ⟨.valueError, "Python int too large to convert to C long"⟩
  | .int64, .float x =>
    .ok (.int (if Scalar.fits .int64 (.int (truncRat x)) then truncRat x else -2 ^ 63))
  | .int64, .bool b => .ok (.int (if b then 1 else 0))
  | .float64, .int n => .ok (.float (roundDouble n))
  | .float64, .float x => .ok (.float x)
  | .float64, .bool b => .ok (.float (if b then 1 else 0))
  | .bool, .bool b => .ok (.bool b)
  | .bool, .int n => .ok (.bool (n != 0))
  | .bool, .float x => .ok (.bool (x != 0))
  | .bool, .none => .ok (.bool false)
  | .bool, .str s => .ok (.bool (s != ""))
  | .bool, .list xs => .ok (.bool !xs.isEmpty)
  | _, _ => .error ⟨.valueError, "cannot convert the value to the requested dtype"⟩

/-- A numpy array: dtype, shape, and its cells in C order. -/
structure NdArray where
  dtype : DType
  shape : List Nat
  cells : List Scalar
  size_eq : cells.length = shape.prod

namespace NdArray

/-- An array of dtype `d` and the given shape, its cells cast to `d`. -/
def cast (d : DType) (shape : List Nat) (cells : List Scalar)
    (h : cells.length = shape.prod) : Except PyError NdArray :=
  match hc : cells.mapM (Scalar.astype d) with
  | .ok cs => .ok ⟨d, shape, cs, (mapM_except_length hc).trans h⟩
  | .error e => .error e

/-- `a.astype(d)`. -/
def astype (d : DType) (a : NdArray) : Except PyError NdArray :=
  cast d a.shape a.cells a.size_eq

/-- `len(a)`: the length of the leading axis. -/
def len (a : NdArray) : Except PyError Nat :=
  match a.shape with
  | [] => .error ⟨.typeError, "len() of unsized object"⟩
  | n :: _ => .ok n

/-- The `n` leading-axis rows of shape `S` that `cells` holds in C order. -/
def rowsOf (d : DType) (S : List Nat) : (n : Nat) → (cells : List Scalar) →
    cells.length = n * S.prod → List NdArray
  | 0, _, _ => []
  | n + 1, cells, h =>
    ⟨d, S, cells.take S.prod, by simp; rw [Nat.succ_mul] at h; omega⟩ ::
      rowsOf d S n (cells.drop S.prod) (by simp [h, Nat.succ_mul])

/-- `list(a)`: the rows of `a` along its leading axis.  A 0-d array cannot be iterated. -/
def rows : NdArray → Except PyError (List NdArray)
  | ⟨_, [], _, _⟩ => .error ⟨.typeError, "iteration over a 0-d array"⟩
  | ⟨d, n :: S, cells, h⟩ => .ok (rowsOf d S n cells (by simpa using h))

/-- Arrays of one shape `S` hold `len * prod S` cells between them. -/
theorem flatten_cells_length (S : List Nat) :
    ∀ (xs : List NdArray), (∀ x ∈ xs, x.shape = S) →
      (xs.map (·.cells)).flatten.length = xs.length * S.prod
  | [], _ => by simp
  | x :: xs, h => by
    have hx : x.cells.length = S.prod := x.size_eq.trans (by rw [h x (by simp)])
    simp only [List.map_cons, List.flatten_cons, List.length_append, hx,
      flatten_cells_length S xs (fun y hy => h y (by simp [hy])), List.length_cons,
      Nat.succ_mul]
    omega

/-- `np.array(rows)` of a list of arrays.  The empty list gives an empty float64 array of
shape `(0,)`; arrays of one shape `S` stack into shape `(len(rows),) + S`, in the dtype
they promote to. -/
def ofRows : List NdArray → Except PyError NdArray
  | [] => .ok ⟨.float64, [0], [], rfl⟩
  | r :: rs =>
    if h : ∀ x ∈ r :: rs, x.shape = r.shape then
      cast (rs.foldl (fun d x => d.promote x.dtype) r.dtype) ((rs.length + 1) :: r.shape)
        ((r :: rs).map (·.cells)).flatten
        (by rw [flatten_cells_length r.shape _ h]; simp)
    else .error ⟨.valueError, "setting an array element with a sequence"⟩

/-- `np.stack([a], axis=0)`: `a` under a new leading axis of length one. -/
def stackOne (a : NdArray) : NdArray :=
  ⟨a.dtype, 1 :: a.shape, a.cells, by simp [a.size_eq]⟩

/-- Arrays of rank at least one sharing the trailing shape `S` hold, between them, the
sum of their leading lengths times `prod S` cells. -/
theorem flatten_cells_length_lead (S : List Nat) :
    ∀ (xs : List NdArray), (∀ x ∈ xs, x.shape ≠ [] ∧ x.shape.tail = S) →
      (xs.map (·.cells)).flatten.length = (xs.map (·.shape.headD 0)).sum * S.prod
  | [], _ => by simp
  | x :: xs, h => by
    obtain ⟨hne, htl⟩ := h x (by simp)
    have hx : x.cells.length = x.shape.headD 0 * S.prod := by
      rw [x.size_eq, ← htl]
      cases hs : x.shape with
      | nil => exact absurd hs hne
      | cons n T => simp
    simp only [List.map_cons, List.flatten_cons, List.length_append, hx,
      flatten_cells_length_lead S xs (fun y hy => h y (by simp [hy])), List.sum_cons,
      Nat.add_mul]

/-- `np.concatenate(arrays, axis=0)`. -/
def concatenate : List NdArray → Except PyError NdArray
  | [] => .error ⟨.valueError, "need at least one array to concatenate"⟩
  | a :: rest =>
    if a.shape = [] then .error ⟨.valueError, "zero-dimensional arrays cannot be concatenated"⟩
    else if h : ∀ x ∈ a :: rest, x.shape ≠ [] ∧ x.shape.tail = a.shape.tail then
      cast (rest.foldl (fun d x => d.promote x.dtype) a.dtype)
        (((a :: rest).map (·.shape.headD 0)).sum :: a.shape.tail)
        ((a :: rest).map (·.cells)).flatten
        (by rw [flatten_cells_length_lead a.shape.tail _ h]; simp)
    else
      .error ⟨.valueError,
        "all the input array dimensions except for the concatenation axis must match exactly"⟩

/-- `a[lo:hi]` along the leading axis of an array of shape `(n,) + S`, with Python's
clamping of the bounds. -/
def sliceRows (d : DType) (n : Nat) (S : List Nat) (cells : List Scalar)
    (h : cells.length = n * S.prod) (lo hi : Nat) : NdArray :=
  ⟨d, (min hi n - min lo (min hi n)) :: S,
    (cells.drop (min lo (min hi n) * S.prod)).take ((min hi n - min lo (min hi n)) * S.prod),
    by
      have hle : (min hi n - min lo (min hi n)) * S.prod ≤
          n * S.prod - min lo (min hi n) * S.prod := by
        rw [← Nat.sub_mul]
        exact Nat.mul_le_mul_right _ (by omega)
      simp only [List.length_take, List.length_drop, h, List.prod_cons]
      omega⟩

/-- `a[lo:hi]` along the leading axis.  A 0-d array cannot be sliced. -/
def slice (a : NdArray) (lo hi : Nat) : Except PyError NdArray :=
  match a with
  | ⟨_, [], _, _⟩ => .error ⟨.indexError, "too many indices for array"⟩
  | ⟨d, n :: S, cells, h⟩ => .ok (sliceRows d n S cells (by simpa using h) lo hi)

/-- numpy's section sizes in `array_split` of `L` rows into `c` sections: the first
`L % c` sections get one row more. -/
def sectionSizes (L c : Nat) : List Nat :=
  List.replicate (L % c) (L / c + 1) ++ List.replicate (c - L % c) (L / c)

/-- The section boundaries of `array_split`: the running sums of the section sizes. -/
def divPoints (L c : Nat) : List Nat :=
  (sectionSizes L c).scanl (· + ·) 0

/-- `np.array_split(a, c)` along axis 0: section `i` is `a[div_points[i]:div_points[i+1]]`. -/
def arraySplit (a : NdArray) (c : Nat) : Except PyError (List NdArray) :=
  match a with
  | ⟨_, [], _, _⟩ => .error ⟨.indexError, "tuple index out of range"⟩
  | ⟨d, n :: S, cells, h⟩ =>
    if c = 0 then .error ⟨.valueError, "number sections must be larger than 0."⟩
    else .ok ((List.range c).map fun i =>
      sliceRows d n S cells (by simpa using h)
        ((divPoints n c).getD i 0) ((divPoints n c).getD (i + 1) 0))

end NdArray

end OrcaXShards
