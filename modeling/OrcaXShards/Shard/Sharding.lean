import OrcaXShards.Shard.Partition
import OrcaXShards.Shard.Align

/-!
# `XShards.partition` cuts every leaf into the same sections

`XShards.partition(data)` cuts each leaf of `data` with `np.array_split(x, c)`, for
`c = node_num * core_num`, and gives shard `i` section `i` of every leaf, packed back into
the nesting of `data`.  numpy places the section boundaries at the running sums of the
section sizes: `L / c` rows each, one more for the first `L % c` sections.

The result is stated in its own arithmetic: section `i` has `s_i` rows and starts at
`o_i = s_0 + ... + s_{i-1}` (`sectionSize`, `sectionStart`), and shard `i` is `data` with
every leaf cut to its rows `[o_i, o_i + s_i)` (`partitionShards`).  This module shows that
numpy's boundaries are those offsets, that the loop over the leaves and
`pack_sequence_as` build exactly those shards, that the sections of a leaf concatenate back
to it, and that the length assertion fires exactly when some leaf's leading length is not
the first leaf's (`PartitionSpec`).
-/

namespace OrcaXShards

/-! ## Sections of a leading axis -/

/-- The size of section `i` of `c` over a leading axis of length `L`: `L / c` rows, one more
for the first `L % c` sections. -/
def sectionSize (L c i : Nat) : Nat := L / c + if i < L % c then 1 else 0

/-- The offset of section `i`: the sizes of the sections before it. -/
def sectionStart (L c i : Nat) : Nat := ((List.range i).map (sectionSize L c)).sum

/-- `a[lo:hi]` along the leading axis of an array of rank at least one; a 0-d array is left
as it is. -/
def NdArray.sliceLead (a : NdArray) (lo hi : Nat) : NdArray :=
  match a with
  | ⟨d, n :: S, cells, h⟩ => NdArray.sliceRows d n S cells (by simpa using h) lo hi
  | a => a

/-- Rows `[lo, hi)` of an array leaf; any other leaf is left as it is. -/
def PyObj.sliceLeaf (lo hi : Nat) : PyObj → PyObj
  | .ndarray a => .ndarray (a.sliceLead lo hi)
  | x => x

/-- Section `i` of the `c` sections of a leaf whose leading length is `L`. -/
def sectionOf (L c i : Nat) : PyObj → PyObj :=
  PyObj.sliceLeaf (sectionStart L c i) (sectionStart L c i + sectionSize L c i)

/-- The shards of `data` cut into `c` sections: shard `i` is `data` with every leaf cut to its
section `i`. -/
def partitionShards (data : PyObj) (L c : Nat) : List PyObj :=
  (List.range c).map fun i => data.mapLeaves (sectionOf L c i)

theorem sectionStart_succ (L c i : Nat) :
    sectionStart L c (i + 1) = sectionStart L c i + sectionSize L c i := by
  simp [sectionStart, List.range_succ]

/-- The section offsets in closed form. -/
theorem sectionStart_eq (L c : Nat) : ∀ i, sectionStart L c i = i * (L / c) + min i (L % c)
  | 0 => by simp [sectionStart]
  | i + 1 => by
    rw [sectionStart_succ, sectionStart_eq L c i, sectionSize, Nat.succ_mul]
    split <;> omega

theorem sectionStart_self {L c : Nat} (hc : 0 < c) : sectionStart L c c = L := by
  rw [sectionStart_eq, Nat.min_eq_right (Nat.mod_lt L hc).le, Nat.div_add_mod]

theorem sectionStart_mono (L c : Nat) {i j : Nat} (hij : i ≤ j) :
    sectionStart L c i ≤ sectionStart L c j := by
  rw [sectionStart_eq, sectionStart_eq]
  have := Nat.mul_le_mul_right (L / c) hij
  omega

/-! ## numpy's boundaries -/

theorem getElem?_scanl_add : ∀ (l : List Nat) (a i : Nat), i ≤ l.length →
    (l.scanl (· + ·) a)[i]? = some (a + (l.take i).sum)
  | [], a, 0, _ => by simp
  | x :: l, a, 0, _ => by simp
  | x :: l, a, i + 1, h => by
    rw [List.scanl_cons, List.singleton_append, List.getElem?_cons_succ,
      getElem?_scanl_add l (a + x) i (by simpa using h)]
    simp [Nat.add_assoc]

theorem sum_take_eq_sum_range (l : List Nat) : ∀ i, i ≤ l.length →
    (l.take i).sum = ((List.range i).map fun j => l.getD j 0).sum
  | 0, _ => by simp
  | i + 1, h => by
    rw [List.sum_take_succ _ _ (by omega), sum_take_eq_sum_range l i (by omega), List.range_succ,
      List.map_append, List.sum_append]
    simp [List.getD_eq_getElem?_getD, List.getElem?_eq_getElem (show i < l.length by omega)]

theorem sectionSizes_getD {L c j : Nat} (hj : j < c) :
    (NdArray.sectionSizes L c).getD j 0 = sectionSize L c j := by
  have hm : L % c < c := Nat.mod_lt _ (by omega)
  unfold NdArray.sectionSizes sectionSize
  rw [List.getD_eq_getElem?_getD]
  by_cases hjm : j < L % c
  · rw [List.getElem?_append_left (by simpa using hjm)]
    simp [hjm]
  · rw [List.getElem?_append_right (by simp; omega)]
    simp [hjm, show j - L % c < c - L % c by omega]

/-- numpy's section boundaries are the section offsets. -/
theorem divPoints_getD {L c i : Nat} (hc : 0 < c) (hi : i ≤ c) :
    (NdArray.divPoints L c).getD i 0 = sectionStart L c i := by
  have hlen : (NdArray.sectionSizes L c).length = c := by
    have := Nat.mod_lt L hc
    simp [NdArray.sectionSizes]
    omega
  rw [List.getD_eq_getElem?_getD, NdArray.divPoints, getElem?_scanl_add _ 0 i (by omega),
    Option.getD_some, Nat.zero_add, sum_take_eq_sum_range _ i (by omega), sectionStart]
  congr 1
  exact List.map_congr_left fun j hj => sectionSizes_getD (by simp at hj; omega)

/-- `np.array_split(a, c)` of an array of rank at least one cuts it into the sections of its
leading axis. -/
theorem NdArray.arraySplit_sections {a : NdArray} {L : Nat} {S : List Nat}
    (ha : a.shape = L :: S) {c : Nat} (hc : 0 < c) :
    a.arraySplit c = .ok ((List.range c).map fun i =>
      a.sliceLead (sectionStart L c i) (sectionStart L c i + sectionSize L c i)) := by
  obtain ⟨d, shape, cells, h⟩ := a
  subst ha
  simp only [NdArray.arraySplit, if_neg (show c ≠ 0 by omega), NdArray.sliceLead]
  congr 1
  refine List.map_congr_left fun i hi => ?_
  have hi' := List.mem_range.mp hi
  rw [divPoints_getD hc (by omega), divPoints_getD hc (by omega), sectionStart_succ]

theorem PyObj.arraySplit_sections {a : NdArray} {L : Nat} {S : List Nat}
    (ha : a.shape = L :: S) {c : Nat} (hc : 0 < c) :
    (PyObj.ndarray a).arraySplit c =
      .ok ((List.range c).map fun i => sectionOf L c i (.ndarray a)) := by
  simp [PyObj.arraySplit, NdArray.arraySplit_sections ha hc, Except.map, sectionOf,
    PyObj.sliceLeaf]

theorem flatten_take_drop {α : Type} (l : List α) (f : Nat → Nat) : ∀ k,
    ((List.range k).map fun i => (l.drop ((List.range i).map f).sum).take (f i)).flatten =
      l.take ((List.range k).map f).sum
  | 0 => by simp
  | k + 1 => by
    rw [List.range_succ, List.map_append, List.flatten_append, flatten_take_drop l f k]
    simp [List.take_add]

/-- The sections of a leaf, concatenated in order, rebuild it: their cells are the leaf's
cells. -/
theorem NdArray.sections_rebuild {a : NdArray} {L : Nat} {S : List Nat} (ha : a.shape = L :: S)
    {c : Nat} (hc : 0 < c) :
    ((List.range c).map fun i =>
        (a.sliceLead (sectionStart L c i) (sectionStart L c i + sectionSize L c i)).cells).flatten =
      a.cells := by
  obtain ⟨d, shape, cells, h⟩ := a
  subst ha
  have hstart : ∀ i, sectionStart L c i * S.prod =
      ((List.range i).map fun j => sectionSize L c j * S.prod).sum := fun i => by
    simp [sectionStart, List.sum_map_mul_right]
  have hsec : ∀ i ∈ List.range c,
      (NdArray.sliceLead ⟨d, L :: S, cells, h⟩ (sectionStart L c i)
        (sectionStart L c i + sectionSize L c i)).cells =
      (cells.drop ((List.range i).map fun j => sectionSize L c j * S.prod).sum).take
        (sectionSize L c i * S.prod) := by
    intro i hi
    have hle := sectionStart_mono L c (List.mem_range.mp hi)
    rw [sectionStart_succ, sectionStart_self hc] at hle
    simp only [NdArray.sliceLead, NdArray.sliceRows]
    rw [Nat.min_eq_left hle, Nat.min_eq_left (by omega), Nat.add_sub_cancel_left, hstart]
  rw [List.map_congr_left hsec, flatten_take_drop, ← hstart, sectionStart_self hc,
    List.take_of_length_le (by simp at h; rw [h])]

/-! ## The loop over the leaves -/

/-- The loop over leaves of one leading length, each cut into sections `sec i`: shard `i`
gains section `i` of every leaf, in order. -/
theorem appendSections_sections {c L : Nat} {sec : Nat → PyObj → PyObj} :
    ∀ (F : Nat → List PyObj) (xs : List PyObj),
      (∀ x ∈ xs, x.len = .ok L ∧ x.arraySplit c = .ok ((List.range c).map fun i => sec i x)) →
      appendSections c L ((List.range c).map F) xs =
        .ok ((List.range c).map fun i => F i ++ xs.map (sec i))
  | F, [], _ => by simp [appendSections]
  | F, x :: xs, h => by
    obtain ⟨hlen, hsplit⟩ := h x (by simp)
    have hzip : List.zipWith (fun s p => s ++ [p]) ((List.range c).map F)
        ((List.range c).map fun i => sec i x) = (List.range c).map fun i => F i ++ [sec i x] := by
      rw [List.zipWith_map, List.zipWith_same]
    simp only [appendSections, hlen, hsplit, bind, Except.bind, if_pos, hzip]
    rw [appendSections_sections (fun i => F i ++ [sec i x]) xs fun y hy => h y (by simp [hy])]
    simp

/-- A leaf whose leading length is not the first leaf's fails the loop's assertion. -/
theorem appendSections_mismatch {c L : Nat} : ∀ (shards : List (List PyObj)) (xs : List PyObj),
    (∀ x ∈ xs, (∃ n, x.len = .ok n) ∧ ∃ parts, x.arraySplit c = .ok parts) →
    (∃ x ∈ xs, x.len ≠ .ok L) →
    ∃ e, appendSections c L shards xs = .error e ∧ e.kind = .assertionError
  | _, [], _, ⟨_, hx, _⟩ => absurd hx (by simp)
  | shards, x :: xs, h, hmis => by
    obtain ⟨⟨n, hn⟩, parts, hparts⟩ := h x (by simp)
    by_cases hnL : n = L
    · subst hnL
      have hmis' : ∃ y ∈ xs, y.len ≠ .ok n := by
        obtain ⟨y, hy, hyn⟩ := hmis
        rcases List.mem_cons.mp hy with rfl | hy
        · exact absurd hn hyn
        · exact ⟨y, hy, hyn⟩
      simp only [appendSections, hn, hparts, bind, Except.bind, if_pos]
      exact appendSections_mismatch _ xs (fun y hy => h y (by simp [hy])) hmis'
    · simp only [appendSections, hn, bind, Except.bind, if_neg hnL]
      exact ⟨_, rfl, rfl⟩

/-- The loop's assertion names the first leaf's length and the length of the first leaf
that differs from it. -/
theorem appendSections_first_mismatch {c L n : Nat} {x : PyObj} (hx : x.len = .ok n) (hn : n ≠ L)
    (post : List PyObj) : ∀ (shards : List (List PyObj)) (pre : List PyObj),
    (∀ y ∈ pre, y.len = .ok L ∧ ∃ parts, y.arraySplit c = .ok parts) →
    appendSections c L shards (pre ++ x :: post) = .error ⟨.assertionError, sizeMismatchMsg L n⟩
  | shards, [], _ => by simp only [List.nil_append, appendSections, hx, bind, Except.bind, if_neg hn]
  | shards, y :: pre, h => by
    obtain ⟨hy, parts, hparts⟩ := h y (List.mem_cons_self _ _)
    simp only [List.cons_append, appendSections, hy, hparts, bind, Except.bind, if_pos]
    exact appendSections_first_mismatch hx hn post _ pre fun z hz => h z (List.mem_cons_of_mem _ hz)

/-- A nesting of lists, tuples and dicts goes to the nested branch. -/
theorem partitionRdd_nested (env : Env) {data : PyObj}
    (h : (∃ xs, data = .list xs) ∨ (∃ xs, data = .tuple xs) ∨ ∃ es, data = .dict es) :
    partitionRdd env data = partitionNested env.sch (env.nodeNum * env.coreNum) data := by
  rcases h with ⟨_, rfl⟩ | ⟨_, rfl⟩ | ⟨_, rfl⟩ <;> rfl

/-! ## The shards -/

section Leaves

variable {data : PyObj} {first : NdArray} {rest : List PyObj}
  (hflat : data.flatten = .ndarray first :: rest)
  (hleaves : ∀ x ∈ data.flatten, ∃ a : NdArray, x = .ndarray a ∧ a.shape ≠ [])

include hflat hleaves

theorem partitionNested_sections (sch : Scheduler) {c : Nat} (hc : 0 < c)
    (hsame : ∀ a : NdArray, .ndarray a ∈ data.flatten → a.shape.headD 0 = first.shape.headD 0) :
    partitionNested sch c data =
      .ok (Rdd.parallelize sch (partitionShards data (first.shape.headD 0) c)) := by
  set L := first.shape.headD 0
  have hsec : ∀ x ∈ data.flatten, x.len = .ok L ∧
      x.arraySplit c = .ok ((List.range c).map fun i => sectionOf L c i x) := by
    intro x hx
    obtain ⟨a, rfl, ha⟩ := hleaves x hx
    obtain ⟨n, S, hs⟩ := List.exists_cons_of_ne_nil ha
    have hn : n = L := by simpa [hs] using hsame a hx
    subst hn
    exact ⟨by simp [PyObj.len, NdArray.len, hs], PyObj.arraySplit_sections hs hc⟩
  have hrep : List.replicate c ([] : List PyObj) = (List.range c).map fun _ => [] := by simp
  have hloop := appendSections_sections (fun _ => []) data.flatten hsec
  simp only [List.nil_append] at hloop
  have hpack : ((List.range c).map fun i => data.flatten.map (sectionOf L c i)).mapM
      data.packSequenceAs = .ok (partitionShards data L c) :=
    mapM_ok_iff_forall₂.mpr (List.forall₂_map_left_iff.mpr (List.forall₂_map_right_iff.mpr
      (List.forall₂_same.mpr fun i _ => PyObj.packSequenceAs_flatten _ data)))
  have hfirst : (PyObj.ndarray first).len = .ok L := (hsec _ (by simp [hflat])).1
  rw [partitionNested, hflat]
  simp only [hfirst, bind, Except.bind]
  rw [← hflat, hrep, hloop]
  simp only [hpack]
  rfl

theorem partitionNested_mismatch (sch : Scheduler) {c : Nat} (hc : 0 < c)
    (hmis : ∃ a : NdArray, .ndarray a ∈ data.flatten ∧ a.shape.headD 0 ≠ first.shape.headD 0) :
    ∃ e, partitionNested sch c data = .error e ∧ e.kind = .assertionError := by
  have hlen : ∀ a : NdArray, .ndarray a ∈ data.flatten →
      (PyObj.ndarray a).len = .ok (a.shape.headD 0) := fun a ha => by
    obtain ⟨a', ha', hs⟩ := hleaves _ ha
    cases ha'
    obtain ⟨n, S, hs⟩ := List.exists_cons_of_ne_nil hs
    simp [PyObj.len, NdArray.len, hs]
  obtain ⟨e, he, hk⟩ := appendSections_mismatch (L := first.shape.headD 0) (List.replicate c [])
    data.flatten (fun x hx => by
      obtain ⟨a, rfl, ha⟩ := hleaves x hx
      obtain ⟨n, S, hs⟩ := List.exists_cons_of_ne_nil ha
      exact ⟨⟨_, hlen a hx⟩, _, PyObj.arraySplit_sections hs hc⟩)
    (by
      obtain ⟨a, ha, hne⟩ := hmis
      exact ⟨_, ha, by rw [hlen a ha]; simpa using hne⟩)
  refine ⟨e, ?_, hk⟩
  rw [partitionNested, hflat]
  simp only [hlen first (by simp [hflat]), bind, Except.bind]
  rw [← hflat, he]

variable (env : Env)
  (hkind : (∃ a, data = .ndarray a) ∨ (∃ xs, data = .list xs) ∨ (∃ xs, data = .tuple xs) ∨
    ∃ es, data = .dict es)
  (hc : 0 < env.nodeNum * env.coreNum)

include hkind hc

theorem partitionRdd_sections
    (hsame : ∀ a : NdArray, .ndarray a ∈ data.flatten → a.shape.headD 0 = first.shape.headD 0) :
    partitionRdd env data = .ok (Rdd.parallelize env.sch
      (partitionShards data (first.shape.headD 0) (env.nodeNum * env.coreNum))) := by
  rcases hkind with ⟨a, rfl⟩ | hnest
  · obtain ⟨rfl, -⟩ : a = first ∧ rest = [] := by simpa [PyObj.flatten] using hflat
    obtain ⟨a', ha', hne⟩ := hleaves (.ndarray a) (by simp [PyObj.flatten])
    cases ha'
    obtain ⟨n, S, hs⟩ := List.exists_cons_of_ne_nil hne
    show (a.arraySplit _).map _ = _
    rw [NdArray.arraySplit_sections hs hc]
    simp [hs, partitionShards, Except.map, sectionOf, PyObj.sliceLeaf, PyObj.mapLeaves,
      Function.comp_def]
  · rw [partitionRdd_nested env hnest]
    exact partitionNested_sections hflat hleaves _ hc hsame

theorem partitionRdd_mismatch
    (hmis : ∃ a : NdArray, .ndarray a ∈ data.flatten ∧ a.shape.headD 0 ≠ first.shape.headD 0) :
    ∃ e, partitionRdd env data = .error e ∧ e.kind = .assertionError := by
  rcases hkind with ⟨a, rfl⟩ | hnest
  · obtain ⟨rfl, -⟩ : a = first ∧ rest = [] := by simpa [PyObj.flatten] using hflat
    obtain ⟨a', ha', hne⟩ := hmis
    simp only [PyObj.flatten, List.mem_singleton, PyObj.ndarray.injEq] at ha'
    exact absurd (ha' ▸ rfl) hne
  · rw [partitionRdd_nested env hnest]
    exact partitionNested_mismatch hflat hleaves _ hc hmis

end Leaves

/-- What `XShards.partition(data)` does with data whose first leaf has leading length `L`: it
raises an `AssertionError`, leaving every collection as it was, exactly when some leaf's
leading length is not `L`; otherwise its collection collects to `partitionShards`, and the
sections of every leaf of length `L`, concatenated in order, rebuild the leaf. -/
structure PartitionSpec (env : Env) (h : Heap) (data : PyObj) (L : Nat) : Prop where
  raises_iff : (∃ e, XShards.partition env data h = (.error e, h) ∧ e.kind = .assertionError) ↔
    ∃ a : NdArray, PyObj.ndarray a ∈ data.flatten ∧ a.shape.headD 0 ≠ L
  collects : (∀ a : NdArray, PyObj.ndarray a ∈ data.flatten → a.shape.headD 0 = L) →
    ∃ t h', XShards.partition env data h = (.ok t, h') ∧
      SparkXShards.collect t h' = (.ok (partitionShards data L (env.nodeNum * env.coreNum)), h')
  rebuilds : ∀ a : NdArray, PyObj.ndarray a ∈ data.flatten → a.shape.headD 0 = L →
    ((List.range (env.nodeNum * env.coreNum)).map fun i =>
      (a.sliceLead (sectionStart L (env.nodeNum * env.coreNum) i)
        (sectionStart L (env.nodeNum * env.coreNum) i +
          sectionSize L (env.nodeNum * env.coreNum) i)).cells).flatten = a.cells

namespace XShards

theorem partition_of_ok {env : Env} {data : PyObj} {xs : List PyObj}
    (hr : partitionRdd env data = .ok (Rdd.parallelize env.sch xs)) (h : Heap) :
    ∃ t h', partition env data h = (.ok t, h') ∧ SparkXShards.collect t h' = (.ok xs, h') := by
  obtain ⟨ps, hps, hflat⟩ := Rdd.computed_parallelize env.sch xs
  refine ⟨_, _, ?_, hflat ▸ SparkXShards.collect_of_computes
    (Heap.computes_last (h := h) (o := ⟨_, true, false⟩) hps)⟩
  simp only [partition, Call.bind_apply, Call.lift_apply, hr, SparkXShards.construct_apply,
    SparkXShards.init_of_computed hps]
  rfl

theorem partition_of_error {env : Env} {data : PyObj} {e : PyError}
    (hr : partitionRdd env data = .error e) (h : Heap) : partition env data h = (.error e, h) := by
  simp only [partition, Call.bind_apply, Call.lift_apply, hr]

/-- `XShards.partition(data)` of a nesting whose leaves are arrays of rank at least one,
when a leaf's leading length differs from the first leaf's: the `AssertionError` names the
first leaf's length and that of the first leaf, in `nest.flatten` order, that differs, and
no collection is built. -/
theorem partition_names_first_mismatch (env : Env) (h : Heap) {data : PyObj}
    (hnest : (∃ xs, data = .list xs) ∨ (∃ xs, data = .tuple xs) ∨ ∃ es, data = .dict es)
    (hleaves : ∀ x ∈ data.flatten, ∃ a : NdArray, x = .ndarray a ∧ a.shape ≠ [])
    {first b : NdArray} {pre post : List PyObj}
    (hflat : data.flatten = .ndarray first :: pre ++ .ndarray b :: post)
    (hpre : ∀ a : NdArray, .ndarray a ∈ pre → a.shape.headD 0 = first.shape.headD 0)
    (hb : b.shape.headD 0 ≠ first.shape.headD 0) (hc : 0 < env.nodeNum * env.coreNum) :
    partition env data h =
      (.error ⟨.assertionError, sizeMismatchMsg (first.shape.headD 0) (b.shape.headD 0)⟩, h) := by
  have hleaf : ∀ a : NdArray, .ndarray a ∈ data.flatten → (PyObj.ndarray a).len =
      .ok (a.shape.headD 0) ∧ ∃ parts, (PyObj.ndarray a).arraySplit (env.nodeNum * env.coreNum) =
        .ok parts := fun a ha => by
    obtain ⟨a', ha', hs⟩ := hleaves _ ha
    cases ha'
    obtain ⟨n, S, hs⟩ := List.exists_cons_of_ne_nil hs
    exact ⟨by simp [PyObj.len, NdArray.len, hs], _, PyObj.arraySplit_sections hs hc⟩
  have hfirst := hleaf first (by simp [hflat])
  refine partition_of_error ?_ h
  rw [partitionRdd_nested env hnest, partitionNested, hflat, List.cons_append]
  simp only [hfirst.1, bind, Except.bind]
  rw [← List.cons_append, appendSections_first_mismatch (hleaf b (by simp [hflat])).1 hb]
  intro y hy
  rcases List.mem_cons.mp hy with rfl | hy
  · exact hfirst
  · obtain ⟨a, rfl, -⟩ := hleaves y (by simp [hflat, hy])
    rw [← hpre a hy]
    exact hleaf a (by simp [hflat, hy])

/-- A dict of two leaves of length three: an int64 vector, and a float64 matrix inside a
tuple. -/
def pairOfColumns : PyObj :=
  .dict [("x", .ndarray ⟨.int64, [3], [.int 1, .int 2, .int 3], rfl⟩),
    ("y", .tuple [.ndarray ⟨.float64, [3, 2], [.float 0, .float 1, .float 2, .float 3, .float 4,
      .float 5], rfl⟩])]

theorem partition_collects_sections (env : Env) (h : Heap) {data : PyObj}
    (hkind : (∃ a, data = .ndarray a) ∨ (∃ xs, data = .list xs) ∨ (∃ xs, data = .tuple xs) ∨
      ∃ es, data = .dict es)
    {first : NdArray} {rest : List PyObj} (hflat : data.flatten = .ndarray first :: rest)
    (hleaves : ∀ x ∈ data.flatten, ∃ a : NdArray, x = .ndarray a ∧ a.shape ≠ [])
    (hc : 0 < env.nodeNum * env.coreNum) : PartitionSpec env h data (first.shape.headD 0) := by
  refine ⟨⟨fun ⟨e, he, _⟩ => ?_, fun hmis => ?_⟩, fun hsame =>
    partition_of_ok (partitionRdd_sections hflat hleaves env hkind hc hsame) h,
    fun a ha hL => ?_⟩
  · by_contra hmis
    push_neg at hmis
    obtain ⟨t, h', hcall, -⟩ :=
      partition_of_ok (partitionRdd_sections hflat hleaves env hkind hc hmis) h
    rw [hcall] at he
    cases he
  · obtain ⟨e, he, hk⟩ := partitionRdd_mismatch hflat hleaves env hkind hc hmis
    exact ⟨e, partition_of_error he h, hk⟩
  · obtain ⟨a', ha', hs⟩ := hleaves _ ha
    cases ha'
    obtain ⟨n, S, hs⟩ := List.exists_cons_of_ne_nil hs
    obtain rfl : n = first.shape.headD 0 := by simpa [hs] using hL
    exact NdArray.sections_rebuild hs hc

theorem partition_collects_sections_on_pair :
    PartitionSpec (Env.simple true) ⟨[]⟩ pairOfColumns 3 :=
  partition_collects_sections _ _
    (.inr (.inr (.inr ⟨_, show pairOfColumns = .dict _ from rfl⟩))) rfl
    (by simp [pairOfColumns, PyObj.flatten, PyObj.flattenEntries, PyObj.flattenList]) (by decide)

end XShards

end OrcaXShards
