import OrcaXShards.Shard.Methods

/-!
# `unique()` of a collection of series

`unique()` maps `s.unique()` over the series and reduces with
`pd.unique(np.concatenate((list1, list2), axis=0))`.  Spark's `reduce` folds each partition
and then folds the partitions' results on the driver, so the result is one bracketing of the
merge over the series in `collect()` order, and the layout decides which.

On series of one dtype whose values are hashable, the merge is `pd.unique` of the
concatenated cells, and `pd.unique` absorbs an inner `pd.unique` on either side.  The merge
is then associative, and every bracketing gives the values in order of first occurrence.
Across dtypes the concatenation casts to the promoted dtype, and a cast made early in one
bracketing is made late, or never, in another.  Merged first with a float64 series, an int64
value beyond `2 ^ 53` is rounded to a double.  Merged first with an object series, it stays
an int.
-/

namespace OrcaXShards

/-! ## Python's `==` on hashable values -/

/-- What `==` compares on a hashable cell: the number, the string, or nothing for `None`. -/
def Scalar.eqKey : Scalar → Option (ℚ ⊕ String)
  | .none => Option.none
  | .bool b => some (.inl (if b then 1 else 0))
  | .int n => some (.inl n)
  | .float x => some (.inl x)
  | .str s => some (.inr s)
  | .list _ => Option.none

/-- On hashable cells, `==` is equality of keys. -/
theorem Scalar.pyEq_iff_eqKey {a b : Scalar} (ha : a.hashable = true) (hb : b.hashable = true) :
    a.pyEq b = true ↔ a.eqKey = b.eqKey := by
  cases a <;> cases b <;> simp_all [Scalar.pyEq, Scalar.num?, Scalar.eqKey, Scalar.hashable]

/-- Comparing with a hashable cell gives the same answer on cells of one key. -/
theorem Scalar.pyEq_congr_right {c a b : Scalar} (hc : c.hashable = true)
    (ha : a.hashable = true) (hb : b.hashable = true) (hab : a.eqKey = b.eqKey) :
    c.pyEq a = c.pyEq b := by
  rw [Bool.eq_iff_iff, Scalar.pyEq_iff_eqKey hc ha, Scalar.pyEq_iff_eqKey hc hb, hab]

/-! ## First occurrences -/

/-- The values of `vs` that equal no earlier value of `vs`, in order: the values ordered by
their first occurrence. -/
def firstSeen (vs : List Scalar) : List Scalar :=
  (vs.enum.filter fun iv => !(vs.take iv.1).any (·.pyEq iv.2)).map Prod.snd

theorem firstSeen_cons (c : Scalar) (cs : List Scalar) :
    firstSeen (c :: cs) = c :: (firstSeen cs).filter fun d => !c.pyEq d := by
  simp [firstSeen, List.enum_cons, List.enumFrom_eq_map_enum, List.filter_map,
    Function.comp_def, Bool.and_comm]

/-- `pd.unique` keeps the values in order of first occurrence. -/
theorem firstOccurrences_eq_firstSeen : ∀ vs : List Scalar, firstOccurrences vs = firstSeen vs
  | [] => rfl
  | c :: cs => by rw [firstOccurrences, firstSeen_cons, firstOccurrences_eq_firstSeen cs]

theorem mem_of_mem_firstOccurrences : ∀ {vs : List Scalar} {v : Scalar},
    v ∈ firstOccurrences vs → v ∈ vs
  | [], _, h => h
  | c :: cs, v, h => by
    rcases List.mem_cons.mp h with rfl | h
    · exact List.mem_cons_self _ _
    · exact List.mem_cons_of_mem _ (mem_of_mem_firstOccurrences (List.mem_filter.mp h).1)

/-- `pd.unique` leaves no two equal values. -/
theorem firstOccurrences_pairwise :
    ∀ vs : List Scalar, (firstOccurrences vs).Pairwise fun u v => u.pyEq v = false
  | [] => .nil
  | c :: cs => List.Pairwise.cons (fun d hd => by simpa using (List.mem_filter.mp hd).2)
      ((firstOccurrences_pairwise cs).filter _)

/-- `pd.unique` keeps a value equal to each hashable value. -/
theorem firstOccurrences_covers : ∀ {vs : List Scalar}, (∀ v ∈ vs, v.hashable = true) →
    ∀ v ∈ vs, ∃ u ∈ firstOccurrences vs, u.pyEq v = true
  | [], _, _, h => absurd h (List.not_mem_nil _)
  | c :: cs, hvs, v, hv => by
    have hc := hvs c (List.mem_cons_self _ _)
    by_cases hcv : c.pyEq v = true
    · exact ⟨c, List.mem_cons_self _ _, hcv⟩
    rcases List.mem_cons.mp hv with rfl | hv
    · exact absurd ((Scalar.pyEq_iff_eqKey hc hc).mpr rfl) hcv
    obtain ⟨u, hu, huv⟩ := firstOccurrences_covers (fun w hw => hvs w (List.mem_cons_of_mem _ hw)) v hv
    have hu' := hvs u (List.mem_cons_of_mem _ (mem_of_mem_firstOccurrences hu))
    have hv' := hvs v (List.mem_cons_of_mem _ hv)
    have hkey := (Scalar.pyEq_iff_eqKey hu' hv').mp huv
    refine ⟨u, List.mem_cons_of_mem _ (List.mem_filter.mpr ⟨hu, ?_⟩), huv⟩
    rw [Scalar.pyEq_congr_right hc hu' hv' hkey]
    simpa using hcv

/-- Keeping the values that pass a test commutes with `pd.unique`, for a test that gives
equal values one answer. -/
theorem filter_firstOccurrences {p : Scalar → Bool} :
    ∀ {vs : List Scalar}, (∀ v ∈ vs, v.hashable = true) →
      (∀ a ∈ vs, ∀ b ∈ vs, a.eqKey = b.eqKey → p a = p b) →
      (firstOccurrences vs).filter p = firstOccurrences (vs.filter p)
  | [], _, _ => rfl
  | c :: cs, hvs, hp => by
    have hcs : ∀ v ∈ cs, v.hashable = true := fun v hv => hvs v (List.mem_cons_of_mem _ hv)
    have ih := filter_firstOccurrences hcs
      fun a ha b hb => hp a (List.mem_cons_of_mem _ ha) b (List.mem_cons_of_mem _ hb)
    rw [firstOccurrences]
    cases hpc : p c
    · rw [List.filter_cons_of_neg (by simp [hpc]), List.filter_cons_of_neg (by simp [hpc]), ← ih,
        List.filter_filter]
      refine List.filter_congr fun d hd => ?_
      have hd' := mem_of_mem_firstOccurrences hd
      cases hpd : p d
      · rfl
      · have hcd : c.pyEq d = false := by
          by_contra hne
          have := hp c (List.mem_cons_self _ _) d (List.mem_cons_of_mem _ hd')
            ((Scalar.pyEq_iff_eqKey (hvs c (List.mem_cons_self _ _)) (hcs d hd')).mp (by simpa using hne))
          rw [hpc, hpd] at this
          cases this
        simp [hcd]
    · rw [List.filter_cons_of_pos (by simp [hpc]), List.filter_cons_of_pos (by simp [hpc]),
        firstOccurrences, ← ih, List.filter_filter, List.filter_filter]
      simp only [Bool.and_comm]

/-- A `pd.unique` of the front of a concatenation is absorbed by the `pd.unique` of the
whole. -/
theorem firstOccurrences_append_left : ∀ {xs : List Scalar} (ys : List Scalar),
    (∀ v ∈ xs ++ ys, v.hashable = true) →
    firstOccurrences (firstOccurrences xs ++ ys) = firstOccurrences (xs ++ ys)
  | [], _, _ => rfl
  | x :: xs, ys, h => by
    have hx : x.hashable = true := h x (List.mem_cons_self _ _)
    have hrest : ∀ v ∈ xs ++ ys, v.hashable = true := fun v hv => h v (List.mem_cons_of_mem _ hv)
    have hq : ∀ a b, a.hashable = true → b.hashable = true → a.eqKey = b.eqKey →
        (!x.pyEq a) = !x.pyEq b := fun a b ha hb hab => by
      rw [Scalar.pyEq_congr_right hx ha hb hab]
    have hfo : ∀ v ∈ firstOccurrences xs ++ ys, v.hashable = true := fun v hv => by
      rcases List.mem_append.mp hv with hv | hv
      · exact hrest v (List.mem_append_left _ (mem_of_mem_firstOccurrences hv))
      · exact hrest v (List.mem_append_right _ hv)
    have hfilt : ∀ v ∈ (firstOccurrences xs).filter (fun d => !x.pyEq d) ++ ys,
        v.hashable = true := fun v hv => by
      rcases List.mem_append.mp hv with hv | hv
      · exact hfo v (List.mem_append_left _ (List.mem_filter.mp hv).1)
      · exact hfo v (List.mem_append_right _ hv)
    calc firstOccurrences (firstOccurrences (x :: xs) ++ ys)
        = x :: (firstOccurrences ((firstOccurrences xs).filter (fun d => !x.pyEq d) ++ ys)).filter
            fun d => !x.pyEq d := rfl
      _ = x :: firstOccurrences ((firstOccurrences xs ++ ys).filter fun d => !x.pyEq d) := by
        rw [filter_firstOccurrences hfilt fun a ha b hb => hq a b (hfilt a ha) (hfilt b hb),
          List.filter_append, List.filter_append, List.filter_filter]
        simp only [Bool.and_self]
      _ = x :: (firstOccurrences (xs ++ ys)).filter fun d => !x.pyEq d := by
        rw [← filter_firstOccurrences hfo fun a ha b hb => hq a b (hfo a ha) (hfo b hb),
          firstOccurrences_append_left ys hrest]

/-- A `pd.unique` of the back of a concatenation is absorbed by the `pd.unique` of the
whole. -/
theorem firstOccurrences_append_right : ∀ (xs : List Scalar) {ys : List Scalar},
    (∀ v ∈ xs ++ ys, v.hashable = true) →
    firstOccurrences (xs ++ firstOccurrences ys) = firstOccurrences (xs ++ ys)
  | [], ys, h => by simpa using firstOccurrences_append_left [] (by simpa using h)
  | x :: xs, ys, h => by
    rw [List.cons_append, List.cons_append, firstOccurrences, firstOccurrences,
      firstOccurrences_append_right xs fun v hv => h v (List.mem_cons_of_mem _ hv)]

/-! ## The merge `unique()` reduces with -/

/-- `astype(d)` leaves cells that already fit `d` as they are. -/
theorem NdArray.cast_of_fits {d : DType} {shape : List Nat} {cells : List Scalar}
    (h : cells.length = shape.prod) (hfit : ∀ c ∈ cells, c.fits d = true) :
    NdArray.cast d shape cells h = .ok ⟨d, shape, cells, h⟩ := by
  have hm : cells.mapM (Scalar.astype d) = .ok cells := mapM_ok_iff_forall₂.mpr
    (List.forall₂_same.mpr fun c hc => Scalar.astype_of_fits (hfit c hc))
  unfold NdArray.cast
  split
  · rename_i hc
    rw [hm] at hc
    cases hc
    rfl
  · rename_i hc
    rw [hm] at hc
    cases hc

/-- The one-dimensional array of dtype `d` holding `cs`. -/
def NdArray.ofCells (d : DType) (cs : List Scalar) : NdArray := ⟨d, [cs.length], cs, by simp⟩

/-- `s.unique()` of a series whose values are hashable. -/
theorem seriesUnique_series {s : Series} (hs : ∀ v ∈ s.values, v.hashable = true) :
    seriesUnique (.series s) = .ok (.ndarray (.ofCells s.dtype (firstOccurrences s.values))) := by
  simp only [seriesUnique, pdUnique, List.all_eq_true.mpr hs, if_true]
  rfl

/-- Cells that fit dtype `d` and are hashable. -/
def FitsHashable (d : DType) (cs : List Scalar) : Prop :=
  ∀ c ∈ cs, c.fits d = true ∧ c.hashable = true

section FitsHashable

variable {d : DType} {as bs : List Scalar}

theorem FitsHashable.append (ha : FitsHashable d as) (hb : FitsHashable d bs) :
    FitsHashable d (as ++ bs) :=
  fun c hc => (List.mem_append.mp hc).elim (ha c) (hb c)

theorem FitsHashable.firstOccurrences (ha : FitsHashable d as) :
    FitsHashable d (firstOccurrences as) :=
  fun c hc => ha c (mem_of_mem_firstOccurrences hc)

theorem FitsHashable.hashable (ha : FitsHashable d as) : ∀ c ∈ as, c.hashable = true :=
  fun c hc => (ha c hc).2

end FitsHashable

/-- The merge on two arrays of one dtype whose cells fit it and are hashable: `pd.unique`
of the concatenated cells. -/
theorem uniqueMerge_ofCells {d : DType} {as bs : List Scalar} (h : FitsHashable d (as ++ bs)) :
    uniqueMerge (.ndarray (.ofCells d as)) (.ndarray (.ofCells d bs)) =
      .ok (.ndarray (.ofCells d (firstOccurrences (as ++ bs)))) := by
  have hshape : ∀ x ∈ [NdArray.ofCells d as, .ofCells d bs], x.shape ≠ [] ∧
      x.shape.tail = (NdArray.ofCells d as).shape.tail := by simp [NdArray.ofCells]
  have hd : [NdArray.ofCells d bs].foldl (fun d x => d.promote x.dtype)
      (NdArray.ofCells d as).dtype = d := by
    simp [DType.promote, NdArray.ofCells]
  have hcells : ([NdArray.ofCells d as, .ofCells d bs].map (·.cells)).flatten = as ++ bs := by
    simp [NdArray.ofCells]
  simp only [uniqueMerge, NdArray.concatenate]
  rw [if_neg (by simp [NdArray.ofCells]), dif_pos hshape, hd,
    NdArray.cast_of_fits _ fun c hc => (h c (hcells ▸ hc)).1]
  simp only [bind, Except.bind, pdUnique, hcells, List.all_eq_true.mpr fun c hc => (h c hc).2]
  rfl

/-! ## The result of `unique()` -/

section OneDtype

variable {d : DType}

/-- On cells that fit `d` and are hashable, the merge is `pd.unique` of the concatenation,
and it is associative. -/
theorem firstOccurrences_merge_assoc {as bs cs : List Scalar} (ha : FitsHashable d as)
    (hb : FitsHashable d bs) (hc : FitsHashable d cs) :
    firstOccurrences (firstOccurrences (as ++ bs) ++ cs) =
      firstOccurrences (as ++ firstOccurrences (bs ++ cs)) := by
  have h := ((ha.append hb).append hc).hashable
  rw [firstOccurrences_append_left cs h, List.append_assoc,
    firstOccurrences_append_right as (by simpa only [List.append_assoc] using h)]

/-- Folding the merge over the per-series `pd.unique`s is `pd.unique` of all the values. -/
theorem foldl_merge_series : ∀ (ss : List Series) (acc : List Scalar),
    (∀ v ∈ acc ++ ss.flatMap Series.values, v.hashable = true) →
    (ss.map fun s => firstOccurrences s.values).foldl (fun as bs => firstOccurrences (as ++ bs))
      (firstOccurrences acc) = firstOccurrences (acc ++ ss.flatMap Series.values)
  | [], acc, _ => by simp
  | s :: ss, acc, h => by
    have h' : ∀ v ∈ (acc ++ s.values) ++ ss.flatMap Series.values, v.hashable = true := by
      simpa only [List.flatMap_cons, List.append_assoc] using h
    have hs : ∀ v ∈ acc ++ s.values, v.hashable = true := fun v hv =>
      h' v (List.mem_append_left _ hv)
    have hfo : ∀ v ∈ acc ++ firstOccurrences s.values, v.hashable = true := fun v hv => by
      rcases List.mem_append.mp hv with hv | hv
      · exact hs v (List.mem_append_left _ hv)
      · exact hs v (List.mem_append_right _ (mem_of_mem_firstOccurrences hv))
    rw [List.map_cons, List.foldl_cons, firstOccurrences_append_left _ hfo,
      firstOccurrences_append_right acc hs, foldl_merge_series ss _ h', List.flatMap_cons,
      List.append_assoc]

/-- `s.unique()` over partitions of series of dtype `d` with hashable values. -/
theorem map_seriesUnique {pss : List (List Series)}
    (hd : ∀ s ∈ pss.flatten, s.dtype = d ∧ ∀ v ∈ s.values, v.fits d = true ∧ v.hashable = true) :
    (Rdd.ofParts (pss.map (List.map .series))).map seriesUnique = Rdd.ofParts
      ((pss.map (List.map fun s => firstOccurrences s.values)).map
        (List.map fun cs => PyObj.ndarray (.ofCells d cs))) := by
  simp only [List.map_map, Function.comp_def]
  refine Rdd.map_ofParts_eq (List.forall₂_map_left_iff.mpr (List.forall₂_map_right_iff.mpr
    (List.forall₂_same.mpr fun p hp => List.forall₂_map_left_iff.mpr
      (List.forall₂_map_right_iff.mpr (List.forall₂_same.mpr fun s hs => ?_)))))
  obtain ⟨hsd, hsv⟩ := hd s (List.mem_flatten.mpr ⟨p, hp, hs⟩)
  rw [seriesUnique_series fun v hv => (hsv v hv).2, hsd]

/-- `unique()` of a collection whose partitions hold series of dtype `d` with hashable
values, at least one series in all: `pd.unique` of all their values in `collect()` order. -/
theorem unique_series {h : Heap} {x : Nat} {o : SparkXShards} (ho : h.objs[x]? = some o)
    {pss : List (List Series)} (hr : o.rdd.computed = .ok (pss.map (List.map .series)))
    (hne : pss.flatten ≠ [])
    (hd : ∀ s ∈ pss.flatten, s.dtype = d ∧ ∀ v ∈ s.values, v.fits d = true ∧ v.hashable = true) :
    SparkXShards.unique x h =
      (.ok (.ndarray (.ofCells d (firstOccurrences (pss.flatten.flatMap Series.values)))), h) := by
  rw [Rdd.computed_eq_ok_iff] at hr
  obtain ⟨s₁, rest, hflat⟩ := List.exists_cons_of_ne_nil hne
  have hcls : getClassName o.rdd = .ok "pandas.core.series.Series" := by
    rw [hr, getClassName_ofParts, ← List.map_flatten, hflat]
    rfl
  have hL : ∀ b ∈ (pss.map (List.map fun s => firstOccurrences s.values)).flatten,
      FitsHashable d b := by
    intro b hb
    rw [← List.map_flatten] at hb
    obtain ⟨s, hs, rfl⟩ := List.mem_map.mp hb
    exact FitsHashable.firstOccurrences (hd s hs).2
  have hb : (pss.map (List.map fun s => firstOccurrences s.values)).flatten =
      firstOccurrences s₁.values :: rest.map fun s => firstOccurrences s.values := by
    rw [← List.map_flatten, hflat, List.map_cons]
  rw [SparkXShards.unique, SparkXShards.query_apply ho]
  simp only [bind, Except.bind, hcls, if_true]
  rw [hr, map_seriesUnique hd, @Rdd.reduce_ofParts_of_assoc PyObj (List Scalar) uniqueMerge (FitsHashable d)
      (fun as bs => firstOccurrences (as ++ bs)) (fun cs => .ndarray (.ofCells d cs))
      (fun _ _ ha hb => uniqueMerge_ofCells (ha.append hb))
      (fun _ _ ha hb => (ha.append hb).firstOccurrences)
      (fun _ _ _ => firstOccurrences_merge_assoc) _ hL _ _ hb,
    foldl_merge_series rest s₁.values, hflat, List.flatMap_cons]
  intro v hv
  rw [← List.flatMap_cons, ← hflat] at hv
  obtain ⟨s, hs, hv⟩ := List.mem_flatMap.mp hv
  exact ((hd s hs).2 v hv).2

/-- What `unique()` is to return on the values `vs` of series of dtype `d`: a
one-dimensional array of dtype `d` without two equal values, holding exactly the values of
`vs` up to `==`, in order of first occurrence. -/
structure UniqueResult (d : DType) (vs : List Scalar) (a : NdArray) : Prop where
  dtype_eq : a.dtype = d
  shape_eq : a.shape = [a.cells.length]
  no_duplicates : a.cells.Pairwise fun u v => u.pyEq v = false
  mem_values : ∀ v ∈ a.cells, v ∈ vs
  covers_values : ∀ v ∈ vs, ∃ u ∈ a.cells, u.pyEq v = true
  first_seen : a.cells = firstSeen vs

theorem uniqueResult_ofCells {vs : List Scalar} (hvs : ∀ v ∈ vs, v.hashable = true) :
    UniqueResult d vs (.ofCells d (firstOccurrences vs)) :=
  ⟨rfl, rfl, firstOccurrences_pairwise vs, fun _ => mem_of_mem_firstOccurrences,
    firstOccurrences_covers hvs, firstOccurrences_eq_firstSeen vs⟩

/-- `unique()` of a collection of series of one dtype with hashable values, at least one
series in all, in any number of partitions, some possibly empty: an array without two equal
values, holding the values of the series up to `==` in order of first occurrence in
`collect()` order.  It depends only on the series in that order, so every layout of them,
one partition among them, gives the same result. -/
theorem unique_first_seen {h : Heap} {x : Nat} {o : SparkXShards} (ho : h.objs[x]? = some o)
    {pss : List (List Series)} (hr : o.rdd.computed = .ok (pss.map (List.map .series)))
    (hne : pss.flatten ≠ [])
    (hd : ∀ s ∈ pss.flatten, s.dtype = d ∧ ∀ v ∈ s.values, v.fits d = true ∧ v.hashable = true) :
    (∃ a, SparkXShards.unique x h = (.ok (.ndarray a), h) ∧
      UniqueResult d (pss.flatten.flatMap Series.values) a) ∧
    ∀ (h' : Heap) (x' : Nat) (o' : SparkXShards) (pss' : List (List Series)),
      h'.objs[x']? = some o' → o'.rdd.computed = .ok (pss'.map (List.map .series)) →
      pss'.flatten = pss.flatten →
      (SparkXShards.unique x' h').1 = (SparkXShards.unique x h).1 := by
  refine ⟨⟨_, unique_series ho hr hne hd, uniqueResult_ofCells fun v hv => ?_⟩,
    fun h' x' o' pss' ho' hr' hflat => ?_⟩
  · obtain ⟨s, hs, hv⟩ := List.mem_flatMap.mp hv
    exact ((hd s hs).2 v hv).2
  · rw [unique_series ho' hr' (by rwa [hflat]) (by rwa [hflat]), unique_series ho hr hne hd, hflat]

/-- The series `[1, 1, 2]` and `[2, 3]` of int64, in three partitions, the middle one empty. -/
def int64SeriesParts : List (List Series) :=
  [[⟨.int64, [.int 1, .int 1, .int 2]⟩], [], [⟨.int64, [.int 2, .int 3]⟩]]

/-- A driver holding the collection of `int64SeriesParts`. -/
def int64SeriesHeap : Heap :=
  ⟨[⟨Rdd.ofParts (int64SeriesParts.map (List.map .series)), true, false⟩]⟩

theorem unique_first_seen_on_int64_series :
    (∃ a, SparkXShards.unique 0 int64SeriesHeap = (.ok (.ndarray a), int64SeriesHeap) ∧
      UniqueResult .int64 (int64SeriesParts.flatten.flatMap Series.values) a) ∧
    ∀ (h' : Heap) (x' : Nat) (o' : SparkXShards) (pss' : List (List Series)),
      h'.objs[x']? = some o' → o'.rdd.computed = .ok (pss'.map (List.map .series)) →
      pss'.flatten = int64SeriesParts.flatten →
      (SparkXShards.unique x' h').1 = (SparkXShards.unique 0 int64SeriesHeap).1 :=
  unique_first_seen (h := int64SeriesHeap) rfl (Rdd.computed_ofParts _)
    (by simp [int64SeriesParts]) (by decide)

end OneDtype

/-- Three one-element series of three dtypes: an int64 value beyond `2 ^ 53`, a float64
value and a string. -/
def mixedSeries : List PyObj :=
  [.series ⟨.int64, [.int (2 ^ 53 + 1)]⟩, .series ⟨.float64, [.float 2]⟩,
    .series ⟨.object, [.str "a"]⟩]

theorem unique_mixed_dtypes_depends_on_layout :
    (SparkXShards.unique 0 ⟨[⟨Rdd.ofParts [mixedSeries], true, false⟩]⟩).1 =
      .ok (.ndarray (.ofCells .object [.float (2 ^ 53), .float 2, .str "a"])) ∧
    (SparkXShards.unique 0
        ⟨[⟨Rdd.ofParts [mixedSeries.take 1, mixedSeries.drop 1], true, false⟩]⟩).1 =
      .ok (.ndarray (.ofCells .object [.int (2 ^ 53 + 1), .float 2, .str "a"])) ∧
    Scalar.pyEq (.float (2 ^ 53)) (.int (2 ^ 53 + 1)) = false :=
  ⟨rfl, rfl, rfl⟩

end OrcaXShards
