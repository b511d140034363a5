import OrcaXShards.Pandas.Convert

/-!
# pandas frames as `shard.py` uses them

`repartition` and `partition_by` take every frame apart into rows with
`df.apply(lambda row: (key, row.values.tolist()), axis=1)` and rebuild frames from the
row lists with `pd.DataFrame(data, columns=...).astype(dtypes)` or `pd.concat`.  This
module models those pieces.

A frame is its schema (column labels with one dtype each) and its rows, each row
fitting the schema.  A row passed to the applied function is a series over the column
labels whose values are the row's cells in the frame's common dtype: that is what
`df.values` interleaves to, so `row.values.tolist()` gives those values, and the
integer cells of a frame with a float column arrive as doubles.

Frames with a repeated column label are outside the model.
-/

namespace OrcaXShards

/-- A column label. -/
inductive Label
  | int (n : Int)
  | str (s : String)
  deriving DecidableEq, Repr

/-- Whether a label is an integer. -/
def Label.isInt : Label → Bool
  | .int _ => true
  | .str _ => false

/-- The columns of a frame: distinct labels in order, with one dtype each. -/
@[ext]
structure Schema where
  columns : List Label
  dtypes : List DType
  length_eq : dtypes.length = columns.length
  nodup : columns.Nodup

instance : DecidableEq Schema := fun a b =>
  decidable_of_iff (a.columns = b.columns ∧ a.dtypes = b.dtypes)
    ⟨fun ⟨h₁, h₂⟩ => Schema.ext h₁ h₂, fun h => h ▸ ⟨rfl, rfl⟩⟩

/-- A row fits a schema: one value per column, each of its column's dtype. -/
def Schema.Fits (s : Schema) (row : List Scalar) : Prop :=
  List.Forall₂ (fun d c => c.fits d = true) s.dtypes row

/-- A pandas frame: its schema and its rows, each fitting the schema. -/
structure DataFrame where
  schema : Schema
  rows : List (List Scalar)
  rows_fit : ∀ r ∈ rows, schema.Fits r

/-- A pandas series: its dtype and its values. -/
structure Series where
  dtype : DType
  values : List Scalar

/-! ## Taking a frame apart into rows -/

/-- The dtype two columns interleave to in `df.values`: equal dtypes stay, int64 and
float64 go to float64, anything else mixed goes to object. -/
def DType.interleave (a b : DType) : DType :=
  if a = b then a
  else if (a = .int64 ∨ a = .float64) ∧ (b = .int64 ∨ b = .float64) then .float64
  else .object

/-- The common dtype of a frame's columns, the dtype of `df.values`. -/
def DType.common : List DType → DType
  | [] => .object
  | d :: ds => ds.foldl DType.interleave d

/-- A cell as it stands in an array of dtype `k`: under a float64 `df.values` an
integer becomes the nearest double. -/
def Scalar.upcast (k : DType) : Scalar → Scalar
  | .int n => if k = .float64 then .float (roundDouble n) else .int n
  | c => c

/-- `row.values.tolist()` for a row of a frame with schema `s`. -/
def Schema.rowValues (s : Schema) (row : List Scalar) : List Scalar :=
  row.map (Scalar.upcast (DType.common s.dtypes))

/-- `row[0]` on a row series indexed by the column labels.  pandas looks the integer key
up as a label when the labels hold an integer, and takes the first position otherwise. -/
def rowAtZero (columns : List Label) (values : List Scalar) : Except PyError Scalar :=
  if columns.any Label.isInt then
    match ((columns.zip values).find? fun p => p.1 = .int 0) with
    | some p => .ok p.2
    | none => .error ⟨.keyError, "0"⟩
  else
    match values.head? with
    | some v => .ok v
    | none => .error ⟨.indexError, "index 0 is out of bounds for axis 0 with size 0"⟩

/-- `row[label]`: a label lookup on a row series. -/
def rowAt (columns : List Label) (values : List Scalar) (label : Label) :
    Except PyError Scalar :=
  match ((columns.zip values).find? fun p => p.1 = label) with
  | some p => .ok p.2
  | none => .error ⟨.keyError, "the label is not in the index"⟩

/-- `row[l]` looks at the labels in order. -/
theorem rowAt_cons (c : Label) (cs : List Label) (v : Scalar) (vs : List Scalar) (l : Label) :
    rowAt (c :: cs) (v :: vs) l = if c = l then .ok v else rowAt cs vs l := by
  by_cases h : c = l <;> simp [rowAt, List.find?_cons, h]

/-- A cell-wise map of the row commutes with the lookup. -/
theorem rowAt_map (f : Scalar → Scalar) (l : Label) :
    ∀ (cs : List Label) (vs : List Scalar), rowAt cs (vs.map f) l = (rowAt cs vs l).map f
  | [], _ => rfl
  | _ :: _, [] => rfl
  | c :: cs, v :: vs => by
    rw [List.map_cons, rowAt_cons, rowAt_cons, rowAt_map f l cs vs]
    split <;> rfl

/-- A label of the row is found. -/
theorem rowAt_ok {l : Label} : ∀ {cs : List Label} {vs : List Scalar}, l ∈ cs →
    vs.length = cs.length → ∃ v, rowAt cs vs l = .ok v
  | c :: cs, v :: vs, hl, hlen => by
    rw [rowAt_cons]
    by_cases hc : c = l
    · exact ⟨v, by simp [hc]⟩
    · simp only [hc, if_false]
      exact rowAt_ok ((List.mem_cons.mp hl).resolve_left (Ne.symm hc)) (by simpa using hlen)

/-- The cells `row[l]` reads from two rows of one schema fit one dtype, that of column `l`. -/
theorem rowAt_fits_same {l : Label} {v₁ v₂ : Scalar} :
    ∀ {cs : List Label} {ds : List DType} {r₁ r₂ : List Scalar},
      List.Forall₂ (fun d c => c.fits d = true) ds r₁ →
      List.Forall₂ (fun d c => c.fits d = true) ds r₂ → ds.length = cs.length →
      rowAt cs r₁ l = .ok v₁ → rowAt cs r₂ l = .ok v₂ → ∃ d ∈ ds, v₁.fits d ∧ v₂.fits d
  | c :: cs, d :: ds, _ :: _, _ :: _, .cons h₁ t₁, .cons h₂ t₂, hlen, e₁, e₂ => by
    rw [rowAt_cons] at e₁ e₂
    split at e₁
    · rw [if_pos ‹_›] at e₂
      cases e₁
      cases e₂
      exact ⟨d, by simp, h₁, h₂⟩
    · rw [if_neg ‹_›] at e₂
      obtain ⟨d', hd', hf⟩ := rowAt_fits_same t₁ t₂ (by simpa using hlen) e₁ e₂
      exact ⟨d', by simp [hd'], hf⟩

/-- `df.apply(lambda row: (key(row), row.values.tolist()), axis=1).values.tolist()`: one
pair per row, the row's values next to the key read from them. -/
def DataFrame.keyedRows (key : List Scalar → Except PyError Scalar) (df : DataFrame) :
    Except PyError (List (Scalar × List Scalar)) :=
  df.rows.mapM fun r =>
    (key (df.schema.rowValues r)).map fun k => (k, df.schema.rowValues r)

/-- A key that reads from every row succeeds keys every row. -/
theorem DataFrame.keyedRows_of_key {key : List Scalar → Except PyError Scalar}
    {K : List Scalar → Scalar} (df : DataFrame)
    (hK : ∀ r ∈ df.rows, key (df.schema.rowValues r) = .ok (K r)) :
    df.keyedRows key = .ok (df.rows.map fun r => (K r, df.schema.rowValues r)) :=
  mapM_ok_iff_forall₂.mpr (List.forall₂_map_right_iff.mpr (List.forall₂_same.mpr fun r hr => by
    rw [hK r hr]; rfl))

/-! ## Building a frame from rows -/

/-- What `astype(d)` returns fits `d`. -/
theorem Scalar.astype_fits {d : DType} {c c' : Scalar} (h : c.astype d = .ok c') :
    c'.fits d = true := by
  cases d <;> cases c <;> simp only [Scalar.astype] at h <;> (try split at h) <;> cases h <;>
    first | rfl | assumption

/-- `astype(d)` leaves a value that already fits `d` as it is. -/
theorem Scalar.astype_of_fits {d : DType} {c : Scalar} (h : c.fits d = true) :
    c.astype d = .ok c := by
  cases d <;> cases c <;> simp_all [Scalar.fits, Scalar.astype]

/-- `astype(dtypes)` on one row: each value cast to its column's dtype.  A row whose length
differs from the number of columns raises, as `pd.DataFrame(data, columns)` does. -/
def castRow : (ds : List DType) → (row : List Scalar) →
    Except PyError {r : List Scalar // List.Forall₂ (fun d c => c.fits d = true) ds r}
  | [], [] => .ok ⟨[], .nil⟩
  | d :: ds, c :: cs =>
    match hc : c.astype d, castRow ds cs with
    | .ok c', .ok r => .ok ⟨c' :: r.1, .cons (Scalar.astype_fits hc) r.2⟩
    | .error e, _ => .error e
    | .ok _, .error e => .error e
  | _, _ => .error ⟨.valueError, "the rows and the columns differ in length"⟩

/-- The conversion `maybe_convert_objects` makes of column `j` of the rows. -/
def columnConversion (rows : List (List Scalar)) (j : Nat) : Conversion :=
  Conversion.of (rows.map fun r => r.getD j .none)

/-- The cells of a row from column `j` on, as the `astype` of each column reads them after
`maybe_convert_objects` has converted it. -/
def convertRow (rows : List (List Scalar)) (ds : List DType) : Nat → List Scalar → List Scalar
  | _, [] => []
  | j, c :: cs =>
    (columnConversion rows j).apply (ds.getD j .object) c :: convertRow rows ds (j + 1) cs

/-- `pd.DataFrame(data=data, columns=s.columns).astype(s.dtypes)` in pandas 1.x.  The rows
are padded with `None` to the longest, which must have one cell per column; each column
goes through `maybe_convert_objects`; each cell is then cast to its column's dtype. -/
def DataFrame.fromRows (s : Schema) (data : List (List Scalar)) : Except PyError DataFrame :=
  let width := (data.map List.length).foldr max 0
  if !data.isEmpty && width != s.columns.length then
    .error ⟨.valueError, toString s.columns.length ++ " columns passed, passed data had " ++
      toString width ++ " columns"⟩
  else
    let rows := data.map fun r => r ++ List.replicate (width - r.length) .none
    if (List.range width).any fun j => columnConversion rows j = .nan then
      .error ⟨.valueError,
        "a column of None and numbers becomes float64 with NaN, which the model does not hold"⟩
    else
      match (rows.map (convertRow rows s.dtypes 0)).mapM (castRow s.dtypes) with
      | .ok rs => .ok ⟨s, rs.map Subtype.val, fun r hr => by
          obtain ⟨x, -, rfl⟩ := List.mem_map.mp hr
          exact x.2⟩
      | .error e => .error e

/-- `pd.concat(dfs)` of frames sharing one schema: their rows one after another.  Frames
with different columns are outside the model. -/
def DataFrame.concat : List DataFrame → Except PyError DataFrame
  | [] => .error ⟨.valueError, "No objects to concatenate"⟩
  | df :: dfs =>
    if h : ∀ x ∈ dfs, x.schema = df.schema then
      .ok ⟨df.schema, (df :: dfs).flatMap (·.rows), fun r hr => by
        obtain ⟨x, hx, hrx⟩ := List.mem_flatMap.mp hr
        rcases List.mem_cons.mp hx with rfl | hx
        · exact x.rows_fit r hrx
        · exact h x hx ▸ x.rows_fit r hrx⟩
    else .error ⟨.valueError, "frames with different columns are outside the model"⟩

/-! ## The round trip of a row -/

/-- What one value of a row becomes on its way through `row.values.tolist()` under the
frame's common dtype `k` and back through `astype`: only under a float64 `k` does an
int64 value move, to the double nearest to it. -/
def Scalar.restore (k : DType) : Scalar → Scalar
  | .int n =>
    if k = .float64 then
      .int (if Scalar.fits .int64 (.int (roundDouble n)) then roundDouble n else -2 ^ 63)
    else .int n
  | c => c

/-- What a row of a frame with schema `s` becomes when it is taken apart with
`row.values.tolist()` and rebuilt with `astype(s.dtypes)`. -/
def Schema.restoreRow (s : Schema) (r : List Scalar) : List Scalar :=
  r.map (Scalar.restore (DType.common s.dtypes))

/-- The dtypes `df.values` turns into float64. -/
def DType.isNumeric : DType → Bool
  | .int64 | .float64 => true
  | _ => false

theorem DType.interleave_numeric {a b : DType} (h : (a.interleave b).isNumeric = true) :
    a.isNumeric = true ∧ b.isNumeric = true := by
  cases a <;> cases b <;> simp_all [DType.interleave, DType.isNumeric]

theorem DType.foldl_interleave_numeric :
    ∀ (ds : List DType) (acc : DType), (ds.foldl DType.interleave acc).isNumeric = true →
      acc.isNumeric = true ∧ ∀ d ∈ ds, d.isNumeric = true
  | [], acc, h => ⟨h, by simp⟩
  | d :: ds, acc, h => by
    obtain ⟨hacc, hds⟩ := foldl_interleave_numeric ds _ h
    obtain ⟨h₁, h₂⟩ := DType.interleave_numeric hacc
    exact ⟨h₁, by simpa [h₂] using hds⟩

/-- A frame whose values interleave to float64 has only numeric columns. -/
theorem DType.common_float64 {ds : List DType} (h : DType.common ds = .float64) :
    ∀ d ∈ ds, d.isNumeric = true := by
  cases ds with
  | nil => cases h
  | cons d ds =>
    have := DType.foldl_interleave_numeric ds d (by simp [DType.common] at h; simp [h,
      DType.isNumeric])
    simpa [this.1] using this.2

theorem truncRat_intCast (m : Int) : truncRat (m : ℚ) = m := by
  simp [truncRat]

/-- One value of a fitting row comes back from the round trip as `Scalar.restore` says. -/
theorem Scalar.astype_upcast {k d : DType} {c : Scalar} (hc : c.fits d = true)
    (hk : k = .float64 → d.isNumeric = true) :
    (c.upcast k).astype d = .ok (c.restore k) := by
  by_cases hkf : k = .float64
  · have hd := hk hkf
    subst hkf
    cases d <;> simp only [DType.isNumeric, Bool.false_eq_true] at hd <;>
      cases c <;> simp only [Scalar.fits, Bool.false_eq_true] at hc <;>
      simp_all [Scalar.upcast, Scalar.restore, Scalar.astype, truncRat_intCast]
  · cases c <;> simp [Scalar.upcast, Scalar.restore, hkf, Scalar.astype_of_fits hc]

theorem castRow_upcast {k : DType} :
    ∀ {ds : List DType} {r : List Scalar},
      List.Forall₂ (fun d c => (c.upcast k).astype d = .ok (c.restore k)) ds r →
      (castRow ds (r.map (Scalar.upcast k))).map Subtype.val = .ok (r.map (Scalar.restore k))
  | [], [], .nil => rfl
  | d :: ds, c :: cs, .cons hc h => by
    have ih := castRow_upcast h
    simp only [List.map_cons]
    unfold castRow
    split
    · rename_i c' r' hc' hr'
      rw [hc] at hc'
      cases hc'
      rw [hr'] at ih
      have ih' : r'.1 = cs.map (Scalar.restore k) := by simpa [Except.map] using ih
      simp [Except.map, ih']
    · rename_i e hc'
      rw [hc] at hc'
      cases hc'
    · rename_i c' e hc' hr'
      rw [hr'] at ih
      cases ih

theorem forall₂_astype_upcast {k : DType} :
    ∀ {ds : List DType} {r : List Scalar}, List.Forall₂ (fun d c => c.fits d = true) ds r →
      (k = .float64 → ∀ d ∈ ds, d.isNumeric = true) →
      List.Forall₂ (fun d c => (c.upcast k).astype d = .ok (c.restore k)) ds r
  | [], [], .nil, _ => .nil
  | d :: _, _ :: _, .cons hc h, hnum =>
    .cons (Scalar.astype_upcast hc fun hk => hnum hk d (by simp))
      (forall₂_astype_upcast h fun hk d' hd' => hnum hk d' (by simp [hd']))

/-- A row of a frame, taken apart with `row.values.tolist()` and cast back with
`astype(dtypes)`, comes back as `restoreRow` says, without raising. -/
theorem castRow_rowValues {s : Schema} {r : List Scalar} (hr : s.Fits r) :
    (castRow s.dtypes (s.rowValues r)).map Subtype.val = .ok (s.restoreRow r) :=
  castRow_upcast (forall₂_astype_upcast hr DType.common_float64)

/-- Every row of a frame makes the round trip, as `restoreRow` says. -/
theorem mapM_castRow_rowValues {s : Schema} : ∀ {rs : List (List Scalar)}, (∀ r ∈ rs, s.Fits r) →
    ∃ ys, (rs.map s.rowValues).mapM (castRow s.dtypes) = .ok ys ∧
      ys.map Subtype.val = rs.map s.restoreRow
  | [], _ => ⟨[], rfl, rfl⟩
  | r :: rs, hfit => by
    obtain ⟨y, hy, hyr⟩ := map_eq_ok.mp (castRow_rowValues (hfit r (by simp)))
    obtain ⟨ys, hys, hysr⟩ := mapM_castRow_rowValues fun r' (hr' : r' ∈ rs) =>
      hfit r' (by simp [hr'])
    refine ⟨y :: ys, ?_, by simp [hyr, hysr]⟩
    rw [List.map_cons, List.mapM_cons, hy, hys]
    rfl

/-! ## Keys read from rows

`partition_by(c)` reads the key `row[c]` from the row series, so under a float64 `df.values`
an integer key arrives as a double.  Two cells of one column that are equal stay equal, and
a hashable cell stays hashable.
-/

/-- Only a float64 `df.values` moves a cell. -/
theorem Scalar.upcast_of_ne {k : DType} (hk : k ≠ .float64) (c : Scalar) : c.upcast k = c := by
  cases c <;> simp [Scalar.upcast, hk]

/-- The upcast of a cell is hashable exactly when the cell is. -/
theorem Scalar.hashable_upcast (k : DType) (c : Scalar) : (c.upcast k).hashable = c.hashable := by
  cases c <;> simp only [Scalar.upcast]
  split <;> rfl

/-- Two equal cells of one column stay equal under the upcast of the frame's values. -/
theorem Scalar.pyEq_upcast {k d : DType} {a b : Scalar} (ha : a.fits d = true) (hb : b.fits d = true)
    (hk : k = .float64 → d.isNumeric = true) (h : a.pyEq b = true) :
    (a.upcast k).pyEq (b.upcast k) = true := by
  by_cases hkf : k = .float64
  · have hd := hk hkf
    subst hkf
    cases d <;> simp only [DType.isNumeric, Bool.false_eq_true] at hd <;>
      cases a <;> cases b <;> simp only [Scalar.fits, Bool.false_eq_true] at ha hb <;>
      simp_all [Scalar.upcast, Scalar.pyEq, Scalar.num?]
  · rwa [Scalar.upcast_of_ne hkf, Scalar.upcast_of_ne hkf]


/-! ## Rebuilding the rows of frames

`merge_rows` and `merge` build one frame from rows taken apart with `row.values.tolist()`.
Before `astype`, `pd.DataFrame` infers every column, and two cells of one object column
that mix an integer with a float, or `None` with a number, change the column.  Rows without
such a pair come back as `Schema.restoreRow` says (`DataFrame.fromRows_rowValues`).
-/

/-- Whether two rows hold, in one column, two cells that `maybe_convert_objects` changes
when they meet. -/
def rowsMix (r r' : List Scalar) : Bool := (r.zip r').any fun p => p.1.mixes p.2

/-- No column of the rows holds two cells that `maybe_convert_objects` changes when they
meet: an integer with a float, or `None` with a number. -/
def Unmixed (rows : List (List Scalar)) : Prop := ∀ r ∈ rows, ∀ r' ∈ rows, rowsMix r r' = false

instance (rows : List (List Scalar)) : Decidable (Unmixed rows) :=
  inferInstanceAs (Decidable (∀ r ∈ rows, ∀ r' ∈ rows, rowsMix r r' = false))

/-- Some of unmixed rows are unmixed. -/
theorem Unmixed.mono {rows rows' : List (List Scalar)} (h : Unmixed rows) (hsub : rows' ⊆ rows) :
    Unmixed rows' :=
  fun r hr r' hr' => h r (hsub hr) r' (hsub hr')

/-- Two rows that do not mix do not mix in column `j`. -/
theorem rowsMix_getD {r r' : List Scalar} (h : rowsMix r r' = false) {j : Nat}
    (hj : j < r.length) (hj' : j < r'.length) :
    (r.getD j .none).mixes (r'.getD j .none) = false := by
  have hmem : (r[j], r'[j]) ∈ r.zip r' :=
    List.mem_iff_getElem.mpr ⟨j, by simp [hj, hj'], by simp⟩
  rw [List.getD_eq_getElem _ _ hj, List.getD_eq_getElem _ _ hj']
  exact Bool.eq_false_iff.mpr (List.any_eq_false.mp h _ hmem)

/-- Cell `j` of a row that fits a schema fits column `j`'s dtype. -/
theorem forall₂_fits_getD : ∀ {ds : List DType} {r : List Scalar},
    List.Forall₂ (fun d c => c.fits d = true) ds r → ∀ {j : Nat}, j < ds.length →
      (r.getD j .none).fits (ds.getD j .object) = true
  | _ :: _, _ :: _, .cons hc _, 0, _ => hc
  | _ :: _, _ :: _, .cons _ h, j + 1, hj => forall₂_fits_getD h (by simpa using hj)

/-- Two cells of one column that do not mix do not mix under the upcast of the frame's
values either. -/
theorem Scalar.mixes_upcast {k d : DType} {a b : Scalar} (ha : a.fits d = true)
    (hb : b.fits d = true) (hk : k = .float64 → d.isNumeric = true) (h : a.mixes b = false) :
    (a.upcast k).mixes (b.upcast k) = false := by
  by_cases hkf : k = .float64
  · have hd := hk hkf
    subst hkf
    cases d <;> simp only [DType.isNumeric, Bool.false_eq_true] at hd <;>
      cases a <;> cases b <;> simp only [Scalar.fits, Bool.false_eq_true] at ha hb <;> rfl
  · rwa [Scalar.upcast_of_ne hkf, Scalar.upcast_of_ne hkf]

/-- An integer read from the upcast of a cell of an int64 column is one that int64 holds. -/
theorem Scalar.int_fits_of_upcast {k : DType} {c : Scalar} {n : Int}
    (hc : c.fits .int64 = true) (h : c.upcast k = .int n) : (Scalar.int n).fits .int64 = true := by
  cases c <;> simp only [Scalar.fits, Bool.false_eq_true] at hc
  simp only [Scalar.upcast] at h
  split at h <;> cases h
  exact hc

/-- The longest of rows that all have `n` cells has `n` cells, if there is a row. -/
theorem foldr_max_length {n : Nat} : ∀ {data : List (List Scalar)}, (∀ r ∈ data, r.length = n) →
    (data.map List.length).foldr max 0 = if data.isEmpty then 0 else n
  | [], _ => rfl
  | r :: data, h => by
    rw [List.map_cons, List.foldr_cons, h r (List.mem_cons_self _ _),
      foldr_max_length fun r' hr' => h r' (List.mem_cons_of_mem _ hr')]
    split <;> simp

/-- A row whose cells every conversion of their column leaves as they are reaches `astype`
as it is. -/
theorem convertRow_eq_self {rows : List (List Scalar)} {ds : List DType} :
    ∀ {j : Nat} {r : List Scalar}, (∀ i < r.length,
      (columnConversion rows (j + i)).apply (ds.getD (j + i) .object) (r.getD i .none) =
        r.getD i .none) → convertRow rows ds j r = r
  | _, [], _ => rfl
  | j, c :: cs, h => by
    have h₀ := h 0 (by simp)
    rw [convertRow, convertRow_eq_self fun i hi => ?_]
    · simpa using h₀
    · have := h (i + 1) (by simpa using hi)
      rwa [List.getD_cons_succ, show j + (i + 1) = j + 1 + i by omega] at this

/-- `pd.DataFrame(data, columns).astype(dtypes)` of rows with one cell per column, in which
`maybe_convert_objects` changes no column: the frame of the rows `astype` gives. -/
theorem DataFrame.fromRows_of_unconverted {s : Schema} {data : List (List Scalar)}
    (hlen : ∀ r ∈ data, r.length = s.columns.length)
    (hcol : ∀ j < s.columns.length, columnConversion data j ≠ .nan ∧
      ∀ c ∈ data.map (fun r => r.getD j .none),
        (columnConversion data j).apply (s.dtypes.getD j .object) c = c)
    {ys : List {r : List Scalar // List.Forall₂ (fun d c => c.fits d = true) s.dtypes r}}
    (hys : data.mapM (castRow s.dtypes) = .ok ys) :
    ∃ df : DataFrame, DataFrame.fromRows s data = .ok df ∧ df.schema = s ∧
      df.rows = ys.map Subtype.val := by
  have hwidth := foldr_max_length hlen
  have hpad : (data.map fun r => r ++ List.replicate
      ((data.map List.length).foldr max 0 - r.length) .none) = data := by
    refine (List.map_congr_left fun r hr => ?_).trans (List.map_id _)
    have : data.isEmpty = false := List.isEmpty_eq_false_iff_exists_mem.mpr ⟨r, hr⟩
    rw [hwidth, this, if_neg (by simp), hlen r hr, Nat.sub_self, List.replicate_zero,
      List.append_nil, id]
  have hconv : data.map (convertRow data s.dtypes 0) = data :=
    (List.map_congr_left fun r hr => convertRow_eq_self fun i hi => by
      rw [Nat.zero_add]
      exact (hcol i (hlen r hr ▸ hi)).2 _ (List.mem_map.mpr ⟨r, hr, rfl⟩)).trans (List.map_id _)
  have hcheck : (!data.isEmpty && (data.map List.length).foldr max 0 != s.columns.length) =
      false := by
    rw [hwidth]
    cases data.isEmpty <;> simp
  have hnan : ((List.range ((data.map List.length).foldr max 0)).any
      fun j => columnConversion data j = .nan) = false := by
    refine List.any_eq_false.mpr fun j hj => ?_
    have hjn : j < s.columns.length := by
      have := List.mem_range.mp hj
      rw [hwidth] at this
      split at this <;> omega
    simpa using (hcol j hjn).1
  refine ⟨⟨s, ys.map Subtype.val, fun r hr => ?_⟩, ?_, rfl, rfl⟩
  · obtain ⟨y, -, rfl⟩ := List.mem_map.mp hr
    exact y.2
  · simp only [DataFrame.fromRows, hcheck, Bool.false_eq_true, if_false, hpad, hnan, hconv, hys]

/-- The rows of frames of schema `s` without mixed columns, taken apart with
`row.values.tolist()` and rebuilt with `pd.DataFrame(data, columns).astype(dtypes)`, give
one frame of the schema holding each row as `restoreRow` says. -/
theorem DataFrame.fromRows_rowValues {s : Schema} {rs : List (List Scalar)}
    (hfit : ∀ r ∈ rs, s.Fits r) (hmix : Unmixed rs) :
    ∃ df : DataFrame, DataFrame.fromRows s (rs.map s.rowValues) = .ok df ∧ df.schema = s ∧
      df.rows = rs.map s.restoreRow := by
  have hlen : ∀ r ∈ rs.map s.rowValues, r.length = s.columns.length := by
    intro r hr
    obtain ⟨r₀, hr₀, rfl⟩ := List.mem_map.mp hr
    rw [Schema.rowValues, List.length_map, ← (hfit r₀ hr₀).length_eq, s.length_eq]
  -- column `j` of the rows: each cell the upcast of a cell of dtype `s.dtypes[j]`
  have hcell : ∀ j < s.columns.length, ∀ a ∈ (rs.map s.rowValues).map (fun r => r.getD j .none),
      ∃ r₀ ∈ rs, j < r₀.length ∧ a = (r₀.getD j .none).upcast (DType.common s.dtypes) ∧
        (r₀.getD j .none).fits (s.dtypes.getD j .object) = true := by
    intro j hj a ha
    obtain ⟨r, hr, rfl⟩ := List.mem_map.mp ha
    obtain ⟨r₀, hr₀, rfl⟩ := List.mem_map.mp hr
    have hj₀ : j < r₀.length := by rw [← (hfit r₀ hr₀).length_eq, s.length_eq]; exact hj
    exact ⟨r₀, hr₀, hj₀, List.getD_map r₀ .none (Scalar.upcast _),
      forall₂_fits_getD (hfit r₀ hr₀) (by rw [s.length_eq]; exact hj)⟩
  have hcol : ∀ j < s.columns.length, columnConversion (rs.map s.rowValues) j ≠ .nan ∧
      ∀ c ∈ (rs.map s.rowValues).map (fun r => r.getD j .none),
        (columnConversion (rs.map s.rowValues) j).apply (s.dtypes.getD j .object) c = c := by
    intro j hj
    refine Conversion.of_unmixed (fun a ha b hb => ?_) fun hd m hm => ?_
    · obtain ⟨r₁, h₁, hj₁, rfl, f₁⟩ := hcell j hj a ha
      obtain ⟨r₂, h₂, hj₂, rfl, f₂⟩ := hcell j hj b hb
      have hjd : j < s.dtypes.length := by rw [s.length_eq]; exact hj
      exact Scalar.mixes_upcast f₁ f₂ (fun hf => DType.common_float64 hf _
        (List.getD_eq_getElem _ _ hjd ▸ List.getElem_mem hjd))
        (rowsMix_getD (hmix r₁ h₁ r₂ h₂) hj₁ hj₂)
    · obtain ⟨r₀, -, -, hup, hf⟩ := hcell j hj _ hm
      exact Scalar.int_fits_of_upcast (hd ▸ hf) hup.symm
  obtain ⟨ys, hys, hysr⟩ := mapM_castRow_rowValues hfit
  obtain ⟨df, hdf, hs, hrows⟩ := DataFrame.fromRows_of_unconverted hlen hcol hys
  exact ⟨df, hdf, hs, hrows.trans hysr⟩

end OrcaXShards
