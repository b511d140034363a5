import OrcaXShards.Shard.Rebalance
import OrcaXShards.Shard.Unique

/-!
# `repartition` on collections of arrays

The array branch of `repartition(n)` takes each array apart into its leading-axis rows with
`list()` and builds arrays again with numpy.  On the increase path the rows are shuffled and
each partition is stacked with `np.stack([list(iter)], axis=0).astype(dtype)`; on the
decrease path the arrays of each coalesced group are concatenated along axis 0.  Both round
trips give the rows back (`ofItems_rows`, `concatRows_arrays`), so `repartition` returns `n`
partitions of one array each, of the source's dtype, whose rows are the source's rows in
some order (`repartition_arrays`).

Two conditions carry the round trips: `list()` of an object array yields the stored Python
objects rather than numpy scalars, so the dtype is not `object`; and `astype` leaves cells
as they are only where they fit the dtype.  On the increase path a partition that receives
no row comes back as one empty one-dimensional array, whatever the rows' shape.
-/

namespace OrcaXShards

/-! ## What `list()` yields from an array -/

/-- What `list(y)` yields from an array: its leading-axis rows; nothing for anything else. -/
def PyObj.arrayItems : PyObj → List PyObj
  | .ndarray a => match a.toList with
    | .ok xs => xs
    | .error _ => []
  | _ => []

/-- An array of dtype `d` and rank at least one with trailing shape `S`, whose cells fit
`d`. -/
structure ArrayOf (d : DType) (S : List Nat) (a : NdArray) : Prop where
  dtype_eq : a.dtype = d
  shape_eq : ∃ m, a.shape = m :: S
  fits : ∀ c ∈ a.cells, c.fits d = true

/-- An item `list(a)` yields from an array of dtype `d` and trailing shape `S`: a numpy
scalar of a one-dimensional array, a row of shape `S` otherwise, its cells fitting `d`. -/
def IsRow (d : DType) : List Nat → PyObj → Prop
  | [], y => ∃ c, y = .npScalar d c ∧ c.fits d = true
  | S@(_ :: _), y => ∃ r : NdArray, y = .ndarray r ∧ r.dtype = d ∧ r.shape = S ∧
      ∀ c ∈ r.cells, c.fits d = true

/-! ## Rows of an array -/

namespace NdArray

/-- `rowsOf` depends on its count and cells only, not on the proof relating them. -/
theorem rowsOf_congr {d : DType} {S : List Nat} {n n' : Nat} {c c' : List Scalar} (hn : n = n')
    (hc : c = c') (h : c.length = n * S.prod) (h' : c'.length = n' * S.prod) :
    rowsOf d S n c h = rowsOf d S n' c' h' := by
  subst hn hc
  rfl

section Rows

variable {d : DType} {S : List Nat}

/-- An array of leading length `n` has `n` rows. -/
theorem length_rowsOf : ∀ (n : Nat) (c : List Scalar) (h : c.length = n * S.prod),
    (rowsOf d S n c h).length = n
  | 0, _, _ => rfl
  | n + 1, c, h => by rw [rowsOf, List.length_cons, length_rowsOf n]

/-- The rows' cells, one after another, are the cells. -/
theorem flatten_rowsOf_cells : ∀ (n : Nat) (c : List Scalar) (h : c.length = n * S.prod),
    ((rowsOf d S n c h).map (·.cells)).flatten = c
  | 0, c, h => (List.eq_nil_of_length_eq_zero (by simpa using h)).symm
  | n + 1, c, h => by
    rw [rowsOf, List.map_cons, List.flatten_cons, flatten_rowsOf_cells n]
    exact List.take_append_drop _ c

/-- Every row has the array's dtype and trailing shape. -/
theorem mem_rowsOf : ∀ {n : Nat} {c : List Scalar} {h : c.length = n * S.prod} {r : NdArray},
    r ∈ rowsOf d S n c h → r.dtype = d ∧ r.shape = S
  | n + 1, c, h, r, hr => by
    rcases List.mem_cons.mp hr with rfl | hr
    · exact ⟨rfl, rfl⟩
    · exact mem_rowsOf hr

end Rows

/-- Cutting the cells of rows of shape `S` back into rows gives the rows. -/
theorem rowsOf_flatten {d : DType} {S : List Nat} : ∀ (rs : List NdArray),
    (∀ r ∈ rs, r.dtype = d ∧ r.shape = S) →
    ∀ h : (rs.map (·.cells)).flatten.length = rs.length * S.prod,
    rowsOf d S rs.length (rs.map (·.cells)).flatten h = rs
  | [], _, _ => rfl
  | r :: rs, hrs, h => by
    obtain ⟨hd, hS⟩ := hrs r (List.mem_cons_self _ _)
    have hr : r.cells.length = S.prod := r.size_eq.trans (by rw [hS])
    simp only [List.length_cons, rowsOf, List.map_cons, List.flatten_cons]
    rw [List.cons.injEq]
    constructor
    · obtain ⟨d', S', cs, hcs⟩ := r
      simp only at hd hS hr ⊢
      subst hd hS
      simp [List.take_append_of_le_length (le_of_eq hr.symm), hr]
    · exact (rowsOf_congr rfl (List.drop_left' hr) _ _).trans (rowsOf_flatten rs
        (fun r' hr' => hrs r' (List.mem_cons_of_mem _ hr'))
          (flatten_cells_length S rs fun r' hr' => (hrs r' (List.mem_cons_of_mem _ hr')).2))

/-- Promoting `d` with itself any number of times gives `d`. -/
theorem foldl_promote_same {d : DType} : ∀ {xs : List NdArray}, (∀ x ∈ xs, x.dtype = d) →
    xs.foldl (fun d' x => d'.promote x.dtype) d = d
  | [], _ => rfl
  | x :: xs, h => by
    rw [List.foldl_cons, h x (List.mem_cons_self _ _), DType.promote, if_pos rfl]
    exact foldl_promote_same fun y hy => h y (List.mem_cons_of_mem _ hy)

/-- Cells that fit `d` in each array fit `d` in all of them, one array after another. -/
theorem fits_flatten_cells {d : DType} {xs : List NdArray}
    (h : ∀ x ∈ xs, ∀ c ∈ x.cells, c.fits d = true) :
    ∀ c ∈ (xs.map (·.cells)).flatten, c.fits d = true := fun c hc => by
  obtain ⟨_, hl, hc⟩ := List.mem_flatten.mp hc
  obtain ⟨x, hx, rfl⟩ := List.mem_map.mp hl
  exact h x hx c hc

/-- `np.array(rows)` of rows of one dtype `d` and shape `S` whose cells fit `d`: the array
of shape `(len(rows),) + S` holding their cells. -/
theorem ofRows_same {d : DType} {S : List Nat} {rs : List NdArray} (hne : rs ≠ [])
    (hrs : ∀ x ∈ rs, x.dtype = d ∧ x.shape = S ∧ ∀ c ∈ x.cells, c.fits d = true) :
    ∃ h, ofRows rs = .ok ⟨d, rs.length :: S, (rs.map (·.cells)).flatten, h⟩ := by
  obtain ⟨r, rs, rfl⟩ := List.exists_cons_of_ne_nil hne
  obtain ⟨hd, hS, -⟩ := hrs r (List.mem_cons_self _ _)
  have hshape : ∀ x ∈ r :: rs, x.shape = r.shape := fun x hx => (hrs x hx).2.1.trans hS.symm
  refine ⟨by rw [flatten_cells_length S _ fun x hx => (hrs x hx).2.1]; simp, ?_⟩
  rw [ofRows, dif_pos hshape, hd, foldl_promote_same fun x hx => (hrs x (List.mem_cons_of_mem _ hx)).1,
    cast_of_fits _ (fits_flatten_cells fun x hx => (hrs x hx).2.2)]
  simp [hS]

/-- `np.concatenate(arrays, axis=0)` of arrays of one dtype `d` and trailing shape `S` whose
cells fit `d`: the array of their leading lengths added, holding their cells in order. -/
theorem concatenate_same {d : DType} {S : List Nat} {as : List NdArray} (hne : as ≠ [])
    (has : ∀ x ∈ as, x.dtype = d ∧ (∃ m, x.shape = m :: S) ∧ ∀ c ∈ x.cells, c.fits d = true) :
    ∃ h, concatenate as = .ok ⟨d, (as.map (·.shape.headD 0)).sum :: S,
      (as.map (·.cells)).flatten, h⟩ := by
  obtain ⟨a, as, rfl⟩ := List.exists_cons_of_ne_nil hne
  obtain ⟨hd, ⟨m, hm⟩, -⟩ := has a (List.mem_cons_self _ _)
  have hlead : ∀ x ∈ a :: as, x.shape ≠ [] ∧ x.shape.tail = S := fun x hx => by
    obtain ⟨-, ⟨m', hm'⟩, -⟩ := has x hx
    simp [hm']
  refine ⟨by rw [flatten_cells_length_lead S _ hlead]; simp, ?_⟩
  rw [concatenate, if_neg (by simp [hm]), dif_pos (by simpa [hm] using hlead), hd,
    foldl_promote_same fun x hx => (has x (List.mem_cons_of_mem _ hx)).1,
    cast_of_fits _ (fits_flatten_cells fun x hx => (has x hx).2.2)]
  simp [hm]

end NdArray

/-! ## One partition -/

section Items

variable {d : DType} {S : List Nat}

/-- `list(a)` of an array of dtype `d ≠ object` and trailing shape `S` yields rows of
`d` and `S`. -/
theorem toList_arrayOf {a : NdArray} (ha : ArrayOf d S a) (hd : d ≠ .object) :
    a.toList = .ok (PyObj.arrayItems (.ndarray a)) ∧ ∀ y ∈ PyObj.arrayItems (.ndarray a), IsRow d S y := by
  obtain ⟨d', shape, cells, h⟩ := a
  obtain ⟨hd', ⟨m, hm⟩, hfit⟩ := ha
  simp only at hd' hm hfit
  subst hd' hm
  cases S with
  | nil =>
    have hl : NdArray.toList ⟨d', [m], cells, h⟩ = .ok (cells.map (.npScalar d')) := by
      simp [NdArray.toList, NdArray.element, hd]
    refine ⟨by simp only [PyObj.arrayItems, hl], fun y hy => ?_⟩
    simp only [PyObj.arrayItems, hl, List.mem_map] at hy
    obtain ⟨c, hc, rfl⟩ := hy
    exact ⟨c, rfl, hfit c hc⟩
  | cons s S =>
    have hl : NdArray.toList ⟨d', m :: s :: S, cells, h⟩ =
        .ok ((NdArray.rowsOf d' (s :: S) m cells (by simpa using h)).map .ndarray) := rfl
    refine ⟨by simp only [PyObj.arrayItems, hl], fun y hy => ?_⟩
    simp only [PyObj.arrayItems, hl, List.mem_map] at hy
    obtain ⟨r, hr, rfl⟩ := hy
    obtain ⟨hrd, hrS⟩ := NdArray.mem_rowsOf hr
    refine ⟨r, rfl, hrd, hrS, fun c hc => hfit c ?_⟩
    rw [← NdArray.flatten_rowsOf_cells (d := d') (S := s :: S) m cells (by simpa using h)]
    exact List.mem_flatten.mpr ⟨_, List.mem_map_of_mem _ hr, hc⟩

/-- `np.stack([a], axis=0).astype(d)` iterated by `mapPartitions`: the array `a` itself, for
an array of dtype `d` and rank at least one whose cells fit `d`. -/
theorem stackOne_astype_toList {a : NdArray} (ha : a.dtype = d) (hs : a.shape ≠ [])
    (hfit : ∀ c ∈ a.cells, c.fits d = true) :
    ((NdArray.stackOne a).astype d >>= NdArray.toList) = .ok [.ndarray a] := by
  obtain ⟨d', shape, cells, h⟩ := a
  simp only at ha hs hfit
  subst ha
  obtain ⟨m, S', rfl⟩ := List.exists_cons_of_ne_nil hs
  have hc : NdArray.astype d' (NdArray.stackOne ⟨d', m :: S', cells, h⟩) =
      .ok ⟨d', 1 :: m :: S', cells, by simpa using h⟩ := NdArray.cast_of_fits _ hfit
  rw [hc]
  show Except.ok ((NdArray.rowsOf d' (m :: S') 1 cells _).map PyObj.ndarray) = _
  simp only [NdArray.rowsOf, List.map_cons, List.map_nil]
  congr
  exact List.take_of_length_le (by simp [h])

/-- numpy reads arrays as themselves. -/
theorem mapM_toNdArray_ndarray (rs : List NdArray) :
    (rs.map PyObj.ndarray).mapM PyObj.toNdArray = .ok rs :=
  mapM_ok_iff_forall₂.mpr (List.forall₂_map_left_iff.mpr (List.forall₂_same.mpr fun _ _ => rfl))

/-- `list(a)` of a one-dimensional array: its cells as numpy scalars, or as the stored
objects for an object array. -/
theorem arrayItems_one_dim {a : NdArray} {m : Nat} (ha : a.shape = [m]) :
    PyObj.arrayItems (.ndarray a) = a.cells.map (NdArray.element a.dtype) := by
  obtain ⟨d, shape, cells, h⟩ := a
  simp only at ha
  subst ha
  rfl

/-- `list(a)` of an array of rank two or more: its leading-axis rows, of its dtype and of its
trailing shape, holding its cells. -/
theorem arrayItems_rows {a : NdArray} {m s : Nat} {S : List Nat} (ha : a.shape = m :: s :: S) :
    ∃ R : List NdArray, PyObj.arrayItems (.ndarray a) = R.map .ndarray ∧
      (∀ r ∈ R, r.dtype = a.dtype ∧ r.shape = s :: S) ∧ R.length = m ∧
      (R.map (·.cells)).flatten = a.cells := by
  obtain ⟨d, shape, cells, h⟩ := a
  simp only at ha
  subst ha
  exact ⟨_, rfl, fun r hr => NdArray.mem_rowsOf hr, NdArray.length_rowsOf _ _ _,
    NdArray.flatten_rowsOf_cells _ _ _⟩

/-- Rows of one dtype and shape are fixed by their number and their cells: an array of rank
two or more whose leading length and cells are those of such rows has them as its rows. -/
theorem arrayItems_eq_of_rows {b : NdArray} {m s : Nat} {S : List Nat} (hb : b.shape = m :: s :: S)
    {R : List NdArray} (hR : ∀ r ∈ R, r.dtype = b.dtype ∧ r.shape = s :: S) (hl : R.length = m)
    (hc : (R.map (·.cells)).flatten = b.cells) :
    PyObj.arrayItems (.ndarray b) = R.map .ndarray := by
  obtain ⟨d, shape, cells, h⟩ := b
  simp only at hb hR hc
  subst hb
  show (NdArray.rowsOf d (s :: S) m cells _).map PyObj.ndarray = _
  rw [← NdArray.rowsOf_flatten R hR (NdArray.flatten_cells_length _ R fun r hr => (hR r hr).2)]
  exact congrArg _ (NdArray.rowsOf_congr hl.symm hc.symm _ _)

/-- `np.array(items)` of the items of arrays of dtype `d ≠ object` and trailing shape `S`:
an array of dtype `d` and rank at least one from which `list()` gives back the items. -/
theorem ofItems_rows (hd : d ≠ .object) {xs : List PyObj} (hne : xs ≠ [])
    (hxs : ∀ y ∈ xs, IsRow d S y) :
    ∃ a : NdArray, NdArray.ofItems xs = .ok a ∧ a.dtype = d ∧ a.shape ≠ [] ∧
      (∀ c ∈ a.cells, c.fits d = true) ∧ PyObj.arrayItems (.ndarray a) = xs := by
  cases S with
  | nil =>
    obtain ⟨cs, rfl, hfit⟩ := exists_eq_map hxs
    let rs := cs.map fun c => (⟨d, [], [c], rfl⟩ : NdArray)
    have hm : (cs.map (.npScalar d)).mapM PyObj.toNdArray = .ok rs :=
      mapM_ok_iff_forall₂.mpr (List.forall₂_map_left_iff.mpr (List.forall₂_map_right_iff.mpr
        (List.forall₂_same.mpr fun _ _ => rfl)))
    have hcells : (rs.map (·.cells)).flatten = cs := by
      rw [List.map_map]
      exact List.flatMap_singleton' _
    obtain ⟨h, hrows⟩ := NdArray.ofRows_same (S := []) (show rs ≠ [] by simpa [rs] using hne)
      fun r hr => by
        obtain ⟨c, hc, rfl⟩ := List.mem_map.mp hr
        exact ⟨rfl, rfl, by simpa using hfit c hc⟩
    refine ⟨_, by rw [NdArray.ofItems, hm]; exact hrows, rfl, by simp,
      fun c hc => hfit c (hcells ▸ hc), ?_⟩
    rw [arrayItems_one_dim rfl]
    simp only [hcells]
    exact List.map_congr_left fun _ _ => if_neg hd
  | cons s S =>
    obtain ⟨rs, rfl, hz⟩ := exists_eq_map (f := PyObj.ndarray)
      (P := fun r => r.dtype = d ∧ r.shape = s :: S ∧ ∀ c ∈ r.cells, c.fits d = true) hxs
    obtain ⟨h, hrows⟩ := NdArray.ofRows_same (by simpa using hne) hz
    exact ⟨_, by rw [NdArray.ofItems, mapM_toNdArray_ndarray]; exact hrows, rfl, by simp,
      NdArray.fits_flatten_cells fun x hx => (hz x hx).2.2,
      arrayItems_eq_of_rows rfl (fun r hr => ⟨(hz r hr).1, (hz r hr).2.1⟩) rfl rfl⟩

/-- `stack_rows` of a partition of rows of dtype `d ≠ object` and trailing shape `S`: one
array of dtype `d` and rank at least one whose rows are the partition. -/
theorem stackRows_rows (hd : d ≠ .object) {xs : List PyObj} (hxs : ∀ y ∈ xs, IsRow d S y) :
    ∃ out, stackRows d xs = .ok out ∧
      (∃ b : NdArray, out = [.ndarray b] ∧ b.dtype = d ∧ b.shape ≠ []) ∧
      out.flatMap PyObj.arrayItems = xs := by
  by_cases hne : xs = []
  · subst hne
    exact ⟨_, rfl, ⟨⟨d, [0], [], rfl⟩, rfl, rfl, by simp⟩, rfl⟩
  · obtain ⟨a, ha, had, has, hfit, hitems⟩ := ofItems_rows hd hne hxs
    refine ⟨_, ?_, ⟨a, rfl, had, has⟩, by simp [hitems]⟩
    rw [stackRows, ha]
    exact stackOne_astype_toList had has hfit

/-- The rows of arrays of rank two or more, one array after another. -/
theorem flatMap_arrayItems_rows {s : Nat} {S : List Nat} : ∀ as : List NdArray,
    (∀ a ∈ as, a.dtype = d ∧ ∃ m, a.shape = m :: s :: S) →
    ∃ R : List NdArray, (as.map .ndarray).flatMap PyObj.arrayItems = R.map .ndarray ∧
      (∀ r ∈ R, r.dtype = d ∧ r.shape = s :: S) ∧ R.length = (as.map (·.shape.headD 0)).sum ∧
      (R.map (·.cells)).flatten = (as.map (·.cells)).flatten
  | [], _ => ⟨[], rfl, by simp, rfl, rfl⟩
  | a :: as, h => by
    obtain ⟨hd, m, hm⟩ := h a (List.mem_cons_self _ _)
    obtain ⟨R₁, h₁, hR₁, hl₁, hc₁⟩ := arrayItems_rows hm
    obtain ⟨R₂, h₂, hR₂, hl₂, hc₂⟩ :=
      flatMap_arrayItems_rows as fun a' ha' => h a' (List.mem_cons_of_mem _ ha')
    refine ⟨R₁ ++ R₂, by simp [h₁, h₂], fun r hr => ?_, by simp [hl₁, hl₂, hm],
      by simp [hc₁, hc₂]⟩
    rcases List.mem_append.mp hr with hr | hr
    · exact hd ▸ hR₁ r hr
    · exact hR₂ r hr

/-- `[np.concatenate(list(iter), axis=0)]` of a nonempty partition of arrays of dtype `d`
and trailing shape `S`: one array of dtype `d` whose rows are theirs, in order. -/
theorem concatRows_arrays {xs : List PyObj} (hne : xs ≠ [])
    (hxs : ∀ y ∈ xs, ∃ a, y = .ndarray a ∧ ArrayOf d S a) :
    ∃ out, concatRows xs = .ok out ∧
      (∃ b : NdArray, out = [.ndarray b] ∧ b.dtype = d ∧ b.shape ≠ []) ∧
      out.flatMap PyObj.arrayItems = xs.flatMap PyObj.arrayItems := by
  obtain ⟨as, rfl, hz⟩ := exists_eq_map hxs
  obtain ⟨h, hc⟩ := NdArray.concatenate_same (by simpa using hne) fun x hx =>
    ⟨(hz x hx).dtype_eq, (hz x hx).shape_eq, (hz x hx).fits⟩
  refine ⟨_, by rw [concatRows, mapM_toNdArray_ndarray]; simp only [bind, Except.bind, hc]; rfl,
    ⟨_, rfl, rfl, by simp⟩, ?_⟩
  rw [List.flatMap_cons, List.flatMap_nil, List.append_nil]
  cases S with
  | nil =>
    rw [arrayItems_one_dim rfl, List.map_flatten, List.flatMap_map, List.flatMap_def, List.map_map]
    refine congrArg _ (List.map_congr_left fun x hx => ?_)
    obtain ⟨hxd, ⟨m, hxm⟩, -⟩ := hz x hx
    simp only [Function.comp_apply, arrayItems_one_dim hxm, hxd]
  | cons s S =>
    obtain ⟨R, hR, hRs, hRl, hRc⟩ :=
      flatMap_arrayItems_rows as fun x hx => ⟨(hz x hx).dtype_eq, (hz x hx).shape_eq⟩
    rw [hR]
    exact arrayItems_eq_of_rows rfl hRs hRl hRc

end Items

/-! ## The collection -/

/-- What `repartition(n)` returns for a collection of arrays of dtype `d` whose rows are
`items`: `n` partitions of one array each, of dtype `d` and rank at least one, their rows
holding the items in some order. -/
structure RebalancedArrays (d : DType) (n : Nat) (items : List PyObj) (qs : List (List PyObj)) :
    Prop where
  length_eq : qs.length = n
  one_array : ∀ q ∈ qs, ∃ b : NdArray, q = [.ndarray b] ∧ b.dtype = d ∧ b.shape ≠ []
  items_perm : (qs.flatten.flatMap PyObj.arrayItems).Perm items

/-- The RDD `repartition(n)` builds from computed arrays of one dtype `d ≠ object` and one
trailing shape: `n` partitions of one array each, of dtype `d`, their rows holding the
source's rows in some order.  The decrease path needs every partition to hold an array. -/
theorem repartitionRdd_arrays (env : Env) {d : DType} {S : List Nat} (hd : d ≠ .object)
    {ps : List (List PyObj)} (harrays : ∀ y ∈ ps.flatten, ∃ a, y = .ndarray a ∧ ArrayOf d S a)
    (hne : ps.flatten ≠ []) {n : Nat} (hn : 0 < n) (hdec : n ≤ ps.length → ∀ p ∈ ps, p ≠ []) :
    ∃ qs, repartitionRdd env (Rdd.ofParts ps) n = .ok (Rdd.ofParts qs) ∧
      RebalancedArrays d n (ps.flatten.flatMap PyObj.arrayItems) qs := by
  obtain ⟨y, ys, hy⟩ := List.exists_cons_of_ne_nil hne
  obtain ⟨a, rfl, ha⟩ := harrays y (by simp [hy])
  obtain ⟨m, hm⟩ := ha.shape_eq
  have hcls : getClassName (Rdd.ofParts ps) = .ok "numpy.ndarray" := by
    rw [getClassName_ofParts, hy]
    rfl
  have hfirst : (Rdd.ofParts ps).first = .ok (.ndarray a) := by
    rw [Rdd.first_ofParts, hy]
  simp only [repartitionRdd, hcls, repartitionArrays, hfirst, bind, Except.bind]
  simp only [hm, ha.dtype_eq, Rdd.numPartitions_ofParts]
  by_cases hk : ps.length < n
  · have hiter := flatMap_iter_eq PyObj.arrayItems fun y hy => by
      obtain ⟨a, rfl, ha⟩ := harrays y hy
      exact (toList_arrayOf ha hd).1
    obtain ⟨rs, hrs, hlen, hperm⟩ :=
      Rdd.repartition_ofParts env.sch (ps.map (·.flatMap PyObj.arrayItems)) hn
    rw [flatten_map_flatMap] at hperm
    have hrows : ∀ r ∈ rs, ∀ y ∈ r, IsRow d S y := fun r hr y hy => by
      obtain ⟨x, hx, hyx⟩ := List.mem_flatMap.mp (hperm.subset (List.mem_flatten.mpr ⟨r, hr, hy⟩))
      obtain ⟨a, rfl, ha⟩ := harrays x hx
      exact (toList_arrayOf ha hd).2 y hyx
    obtain ⟨outs, houts, hF⟩ := exists_mapM_ok_forall₂ fun r hr => stackRows_rows hd (hrows r hr)
    obtain ⟨hshape, hitems⟩ := outputs_of_forall₂ (G := id) hF
    refine ⟨outs, ?_, hF.length_eq.symm.trans hlen, hshape, by rwa [hitems, List.map_id]⟩
    simp [hk, hiter, hrs, Rdd.mapPartitions_ofParts_eq houts, pure, Except.pure]
  · obtain ⟨cs, hcs, hlen, hperm, hnon⟩ := Rdd.coalesce_ofParts env.sch ps hn (by omega)
    obtain ⟨outs, houts, hF⟩ := exists_mapM_ok_forall₂ fun c hc =>
      concatRows_arrays (hnon (hdec (by omega)) c hc) fun y hy =>
        harrays y (hperm.subset (List.mem_flatten.mpr ⟨c, hc, hy⟩))
    obtain ⟨hshape, hitems⟩ := outputs_of_forall₂ hF
    refine ⟨outs, ?_, hF.length_eq.symm.trans hlen, hshape, ?_⟩
    · simp [hk, hcs, Rdd.mapPartitions_ofParts_eq houts, pure, Except.pure]
    · rw [hitems, flatten_map_flatMap]
      exact hperm.flatMap_right _

namespace SparkXShards

variable (env : Env) {h : Heap} {x : Nat} {ps : List (List PyObj)}

/-- `repartition(n)` of a collection of arrays of one dtype `d ≠ object` and one trailing
shape, under every scheduler and in either mode: on the increase path, and on the decrease
path when no partition is empty, `n` partitions of one array each, of dtype `d` and rank at
least one, their rows holding the rows of the source's arrays in some order. -/
theorem repartition_arrays (hx : h.Computes x ps) {d : DType} {S : List Nat} (hd : d ≠ .object)
    (harrays : ∀ y ∈ ps.flatten, ∃ a, y = .ndarray a ∧ ArrayOf d S a) (hne : ps.flatten ≠ [])
    {n : Nat} (hn : 0 < n) (hdec : n ≤ ps.length → ∀ p ∈ ps, p ≠ []) :
    ∃ t h' qs, repartition env x n h = (.ok t, h') ∧ h'.Computes t qs ∧
      RebalancedArrays d n (ps.flatten.flatMap PyObj.arrayItems) qs := by
  obtain ⟨qs, hrdd, hq⟩ := repartitionRdd_arrays env hd harrays hne hn hdec
  obtain ⟨t, h', hcall, hcomp⟩ := repartition_computes env hx hrdd
  exact ⟨t, h', qs, hcall, hcomp, hq⟩

theorem repartition_arrays_on_two_parts :
    ∃ t h' qs, repartition (Env.simple true) 0 3
        ⟨[mk (Rdd.ofParts [[.ndarray ⟨.int64, [2], [.int 1, .int 2], rfl⟩],
          [.ndarray ⟨.int64, [1], [.int 3], rfl⟩]]) true false]⟩ = (.ok t, h') ∧
      h'.Computes t qs ∧
      RebalancedArrays .int64 3 ([[PyObj.ndarray ⟨.int64, [2], [.int 1, .int 2], rfl⟩],
        [.ndarray ⟨.int64, [1], [.int 3], rfl⟩]].flatten.flatMap PyObj.arrayItems) qs :=
  repartition_arrays _ ⟨_, rfl, Rdd.computed_ofParts _⟩ (S := []) (by decide)
    (fun y hy => by
      simp at hy
      rcases hy with rfl | rfl <;> exact ⟨_, rfl, rfl, ⟨_, rfl⟩, by decide⟩)
    (by simp) (by decide) fun h => absurd h (by decide)

end SparkXShards

end OrcaXShards
