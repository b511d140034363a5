import OrcaXShards.Shard.Session

/-!
# The element-wise methods of `SparkXShards`

`transform_shard`, `__getitem__`, `split` and `zip` derive new collections element by
element; `__len__`, `unique`, `save_pickle` and `to_ray` run a job on the collection.
Each method is a `Call`: it reads the objects it is given, may construct new ones, and
demotes the collections it derives from through `_uncache()` (or `uncache()` for
`to_ray`) once nothing is left that can raise.
-/

namespace OrcaXShards

/-- `_get_class_name()`: the class name of the first element. -/
def getClassName (r : Rdd PyObj) : Except PyError String :=
  (r.map fun x => .ok x.className).first

theorem getClassName_ofParts (ps : List (List PyObj)) :
    getClassName (Rdd.ofParts ps) = match ps.flatten with
      | x :: _ => .ok x.className
      | [] => .error ⟨.valueError, "RDD is empty"⟩ := by
  rw [getClassName, Rdd.map_ofParts_ok, Rdd.first_ofParts, ← List.map_flatten]
  cases ps.flatten <;> rfl

/-- Python's values without repeats, in order of first occurrence under `==`. -/
def firstOccurrences : List Scalar → List Scalar
  | [] => []
  | c :: cs => c :: (firstOccurrences cs).filter fun d => !c.pyEq d

/-- `pd.unique(a)` of a one-dimensional array: its values without repeats, in order of
first occurrence.  An unhashable value raises. -/
def pdUnique (a : NdArray) : Except PyError NdArray :=
  if a.cells.all Scalar.hashable then
    .ok ⟨a.dtype, [(firstOccurrences a.cells).length], firstOccurrences a.cells, by simp⟩
  else .error ⟨.typeError, "unhashable type: 'list'"⟩

/-- `s.unique()` on an element of a collection of series. -/
def seriesUnique : PyObj → Except PyError PyObj
  | .series s => (pdUnique ⟨s.dtype, [s.values.length], s.values, by simp⟩).map .ndarray
  | _ => .error ⟨.attributeError, "object has no attribute 'unique'"⟩

/-- The function `unique()` reduces with:
`pd.unique(np.concatenate((list1, list2), axis=0))`. -/
def uniqueMerge : PyObj → PyObj → Except PyError PyObj
  | .ndarray a, .ndarray b => (NdArray.concatenate [a, b] >>= pdUnique).map .ndarray
  | _, _ => .error ⟨.typeError, "concatenate takes arrays"⟩

namespace SparkXShards

/-- `transform(iter, func)`: `func` applied to each element of a partition in turn. -/
def transform (f : PyObj → Except PyError PyObj) (xs : List PyObj) :
    Except PyError (List PyObj) :=
  xs.mapM f

/-- `transform_shard(func, *args)`, with the arguments closed over in `f`. -/
def transformShard (env : Env) (f : PyObj → Except PyError PyObj) (x : Nat) : Call Nat :=
  derive env x fun rdd => .ok (rdd.mapPartitions (transform f))

/-- The function `__getitem__` maps over the elements: `data[key]`, any error of the
subscription turned into a bare `Exception`. -/
def getData (key data : PyObj) : Except PyError PyObj :=
  if data.hasGetItem then
    match data.getItem key with
    | .ok v => .ok v
    | .error _ => .error ⟨.exception, "Invalid key for this XShards"⟩
  else .error ⟨.assertionError, "No selection operation available for this XShards"⟩

/-- `__getitem__(key)`: a transient collection of `data[key]`. -/
def getItem (env : Env) (x : Nat) (key : PyObj) : Call Nat := do
  let self ← Call.get x
  construct env (self.rdd.map (getData key)) true

/-- The split length `split()` reads from an element: the length of a list or a tuple,
`1` for anything else. -/
def splitLength : PyObj → Nat
  | .list xs => xs.length
  | .tuple xs => xs.length
  | _ => 1

/-- `get_data(order)` of `split()`: `data[order]`. -/
def getIndex (i : Nat) (data : PyObj) : Except PyError PyObj :=
  data.getItem (.int i)

/-- The collections `split()` constructs, one after another: component `i` maps
`get_data(i)` over the elements. -/
def splitParts (env : Env) (rdd : Rdd PyObj) : List Nat → Call (List Nat)
  | [] => pure []
  | i :: is => do
    let t ← construct env (rdd.map (getIndex i)) false
    let ts ← splitParts env rdd is
    pure (t :: ts)

/-- `split()`. -/
def split (env : Env) (x : Nat) : Call (List Nat) := do
  let self ← Call.get x
  let lens ← Call.lift (self.rdd.map fun d => .ok (splitLength d)).collect
  match lens with
  | [] => Call.raise ⟨.indexError, "list index out of range"⟩
  | m :: _ =>
    if lens.count m ≠ lens.length then
      Call.raise ⟨.exception,
        "Cannot split this XShards because its partitions have different split length"⟩
    else if 1 < m then do
      let ts ← splitParts env self.rdd (List.range m)
      uncacheInternal x
      pure ts
    else pure [x]

/-- The message `zip` raises when the partitions do not pair up. -/
def zipMismatchMsg : String :=
  "The two SparkXShards should have the same number of elements in each partition"

/-- `zip(other)`: an assertion on the partition counts, then the zipped collection; any
error while it is constructed becomes a `ValueError`. -/
def zip (env : Env) (x y : Nat) : Call Nat := do
  let self ← Call.get x
  let other ← Call.get y
  if self.rdd.numPartitions ≠ other.rdd.numPartitions then
    Call.raise ⟨.assertionError,
      "The two SparkXShards should have the same number of partitions"⟩
  else
    Call.tryCatch
      (do
        let rdd ← Call.lift (self.rdd.zip other.rdd)
        let z ← construct env (rdd.relabel fun p => .tuple [p.1, p.2]) false
        uncacheInternal y
        uncacheInternal x
        pure z)
      fun _ => Call.raise ⟨.valueError, zipMismatchMsg⟩

/-- `__len__()`: the sum of the elements' lengths, an element without `__len__` counting
one. -/
def len (x : Nat) : Call Nat :=
  query x fun self => (self.rdd.map fun d => if d.hasLen then d.len else .ok 1).reduce
    fun a b => .ok (a + b)

/-- `save_pickle(path, batchSize)`: the job that writes every partition. -/
def savePickle (env : Env) (x : Nat) (path : String) : Call Nat :=
  query x fun self =>
    if env.canWrite path then self.rdd.collect.map fun _ => x
    else .error ⟨.py4jJavaError, "Output directory " ++ path ++ " already exists"⟩

/-- `unique()` of a collection of series. -/
def unique (x : Nat) : Call PyObj :=
  query x fun self => do
    let cls ← getClassName self.rdd
    if cls = "pandas.core.series.Series" then (self.rdd.map seriesUnique).reduce uniqueMerge
    else .error ⟨.exception, "Currently only support unique() on XShards of Pandas Series"⟩

/-- `to_ray()`: the plasma job, `uncache()`, then the kept pairs sorted by node ip. -/
def toRay (env : Env) (x : Nat) : Call (List (Plasma.RayPartition String)) := do
  let self ← Call.get x
  let pairs ← Call.lift (env.putToPlasma self.rdd)
  let _ ← uncache x
  pure ((Plasma.sortByIp pairs).map fun p => ⟨p.1, p.2, env.objectStoreAddress⟩)

/-- The elements of the zipped collection: the pairs of two partitions as tuples,
partition by partition. -/
def zipPairs (ps qs : List (List PyObj)) : List (List PyObj) :=
  (List.zipWith List.zip ps qs).map (List.map fun ab => .tuple [ab.1, ab.2])

/-! ## Spec lemmas -/

section Specs

variable {env : Env} {h : Heap} {x y : Nat} {o ox oy : SparkXShards} {ps qs : List (List PyObj)}

theorem transformShard_apply (ho : h.objs[x]? = some o) (hr : o.rdd.computed = .ok ps)
    {f : PyObj → Except PyError PyObj}
    (hq : List.Forall₂ (List.Forall₂ fun e v => f e = .ok v) ps qs) :
    transformShard env f x h =
      (.ok h.objs.length, ⟨(h.objs ++ [mk (Rdd.ofParts qs) true false]).set x (o.after .demote)⟩) := by
  rw [Rdd.computed_eq_ok_iff] at hr
  have hb : o.rdd.mapPartitions (transform f) = Rdd.ofParts qs := by
    rw [hr]
    exact Rdd.map_ofParts_eq hq
  rw [transformShard, derive_apply ho]
  simp only [hb, bind, Except.bind, init_of_computed (Rdd.computed_ofParts qs)]
  rfl

theorem getItem_apply (ho : h.objs[x]? = some o) (key : PyObj) :
    getItem env x key h =
      (.ok h.objs.length, ⟨h.objs ++ [mk (o.rdd.map (getData key)) false false]⟩) := by
  simp only [getItem, Call.bind_apply, get_of ho, construct_apply, init_of_lazy (Or.inr rfl)]
  rfl

theorem splitParts_apply {rdd : Rdd PyObj} :
    ∀ {is : List Nat} {h : Heap},
      (∀ i ∈ is, init env (rdd.map (getIndex i)) false = .ok ⟨rdd.map (getIndex i), true, false⟩) →
      splitParts env rdd is h = (.ok (List.range' h.objs.length is.length),
        ⟨h.objs ++ is.map fun i => mk (rdd.map (getIndex i)) true false⟩)
  | [], h, _ => by simp [splitParts]
  | i :: is, h, hi => by
    simp only [splitParts, Call.bind_apply, construct_apply, hi i (by simp)]
    rw [splitParts_apply fun j hj => hi j (by simp [hj])]
    simp [List.range'_succ]

theorem splitLengths_collect (hr : o.rdd.computed = .ok ps) :
    (o.rdd.map fun d => .ok (splitLength d)).collect = .ok (ps.flatten.map splitLength) := by
  rw [Rdd.computed_eq_ok_iff] at hr
  rw [hr, Rdd.map_ofParts_ok, Rdd.collect_ofParts, List.map_flatten]

/-- An element of split length `m ≥ 2` is a list or a tuple, and `data[i]` reads it for
every `i < m`. -/
theorem getIndex_ok {e : PyObj} {m i : Nat} (he : splitLength e = m) (h2 : 2 ≤ m)
    (hi : i < m) : ∃ v, getIndex i e = .ok v := by
  have hj : ∀ n, i < n → pyIndex n i = some i := fun n hn => by simp [pyIndex, hn]
  cases e <;> simp only [splitLength] at he <;> try omega
  all_goals
    subst he
    unfold getIndex PyObj.getItem
    dsimp only
    rw [hj _ hi]
    exact ⟨_, rfl⟩

/-- Split lengths that are all `m` pass the check of `split()`. -/
theorem splitLengths_even {e : PyObj} {es : List PyObj} {m : Nat}
    (hm : ∀ e' ∈ e :: es, splitLength e' = m) :
    (e :: es).map splitLength = m :: es.map splitLength ∧
      (m :: es.map splitLength).count m = (m :: es.map splitLength).length := by
  refine ⟨by simp [hm e (by simp)], List.count_eq_length.mpr fun b hb => ?_⟩
  rw [← hm e (by simp), ← List.map_cons] at hb
  obtain ⟨e', he', rfl⟩ := List.mem_map.mp hb
  rw [hm e' he']

/-- Component `i < m` of `split()` maps every element `e` to `e[i]`. -/
theorem split_component (hr : o.rdd.computed = .ok ps) {m i : Nat}
    (hm : ∀ e ∈ ps.flatten, splitLength e = m) (h2 : 2 ≤ m) (hi : i < m) :
    ∃ qs, (o.rdd.map (getIndex i)).computed = .ok qs ∧
      List.Forall₂ (List.Forall₂ fun e v => getIndex i e = .ok v) ps qs := by
  obtain ⟨qs, hqs⟩ := Rdd.exists_forall₂_of_total fun e he => getIndex_ok (hm e he) h2 hi
  rw [Rdd.computed_eq_ok_iff] at hr
  exact ⟨qs, by rw [hr, Rdd.map_ofParts_eq hqs, Rdd.computed_ofParts], hqs⟩

theorem split_uneven (ho : h.objs[x]? = some o) (hr : o.rdd.computed = .ok ps)
    (hne : ¬∃ m, ∀ e ∈ ps.flatten, splitLength e = m) :
    split env x h = (.error ⟨.exception,
      "Cannot split this XShards because its partitions have different split length"⟩, h) := by
  simp only [split, Call.bind_apply, get_of ho, Call.lift_apply, splitLengths_collect hr]
  cases hf : ps.flatten with
  | nil => exact absurd ⟨0, by simp [hf]⟩ hne
  | cons e es =>
    have hc : (splitLength e :: es.map splitLength).count (splitLength e) ≠
        (splitLength e :: es.map splitLength).length := by
      rw [Ne, List.count_eq_length]
      rintro hall
      exact hne ⟨splitLength e, fun e' he' => by
        rw [hf] at he'
        exact (hall _ (List.mem_map_of_mem splitLength he')).symm⟩
    simp only [List.map_cons, if_pos hc]
    rfl

theorem split_self (ho : h.objs[x]? = some o) (hr : o.rdd.computed = .ok ps)
    (hne : ps.flatten ≠ []) {m : Nat} (hm : ∀ e ∈ ps.flatten, splitLength e = m) (h1 : m ≤ 1) :
    split env x h = (.ok [x], h) := by
  simp only [split, Call.bind_apply, get_of ho, Call.lift_apply, splitLengths_collect hr]
  obtain ⟨e, es, hf⟩ := List.exists_cons_of_ne_nil hne
  rw [hf] at hm ⊢
  obtain ⟨hmap, hcount⟩ := splitLengths_even hm
  simp only [hmap, hcount, ne_eq, not_true_eq_false, if_false, if_neg (by omega : ¬1 < m)]
  rfl

theorem split_parts (ho : h.objs[x]? = some o) (hr : o.rdd.computed = .ok ps)
    (hne : ps.flatten ≠ []) {m : Nat} (hm : ∀ e ∈ ps.flatten, splitLength e = m) (h2 : 2 ≤ m) :
    split env x h = (.ok (List.range' h.objs.length m),
      ⟨(h.objs ++ (List.range m).map fun i => mk (o.rdd.map (getIndex i)) true false).set x
        (o.after .demote)⟩) := by
  have hx : x < h.objs.length := (List.getElem?_eq_some_iff.mp ho).1
  have hinit : ∀ i ∈ List.range m, init env (o.rdd.map (getIndex i)) false =
      .ok (mk (o.rdd.map (getIndex i)) true false) := fun i hi => by
    obtain ⟨qs, hqs, -⟩ := split_component hr hm h2 (List.mem_range.mp hi)
    exact init_of_computed hqs false
  simp only [split, Call.bind_apply, get_of ho, Call.lift_apply, splitLengths_collect hr]
  obtain ⟨e, es, hf⟩ := List.exists_cons_of_ne_nil hne
  rw [hf] at hm ⊢
  obtain ⟨hmap, hcount⟩ := splitLengths_even hm
  simp only [hmap, hcount, ne_eq, not_true_eq_false, if_false, if_pos (by omega : 1 < m),
    Call.bind_apply, splitParts_apply hinit, List.length_range]
  rw [uncacheInternal_apply (by rw [List.getElem?_append_left hx]; exact ho)]
  rfl

theorem zip_count_ne (hx : h.objs[x]? = some ox) (hy : h.objs[y]? = some oy)
    (hk : ox.rdd.numPartitions ≠ oy.rdd.numPartitions) :
    zip env x y h = (.error ⟨.assertionError,
      "The two SparkXShards should have the same number of partitions"⟩, h) := by
  simp only [zip, Call.bind_apply, get_of hx, get_of hy, if_pos hk]
  rfl

/-- `zip` once the partition counts agree: the zipped collection is constructed and both
sources are demoted, `other` first; a construction that raises becomes a `ValueError`. -/
theorem zip_apply (hx : h.objs[x]? = some ox) (hy : h.objs[y]? = some oy)
    (hk : ox.rdd.numPartitions = oy.rdd.numPartitions) {r : Rdd (PyObj × PyObj)}
    (hr : ox.rdd.zip oy.rdd = .ok r) :
    zip env x y h = match init env (r.relabel fun p => .tuple [p.1, p.2]) false with
      | .ok o' => (.ok h.objs.length,
          ⟨((h.objs ++ [o']).set y (oy.after .demote)).set x (ox.after .demote)⟩)
      | .error _ => (.error ⟨.valueError, zipMismatchMsg⟩, h) := by
  have hxl : x < h.objs.length := (List.getElem?_eq_some_iff.mp hx).1
  have hyl : y < h.objs.length := (List.getElem?_eq_some_iff.mp hy).1
  simp only [zip, Call.bind_apply, get_of hx, get_of hy, hk, ne_eq, not_true_eq_false, if_false,
    Call.tryCatch, Call.lift_apply, hr, construct_apply]
  cases init env (r.relabel fun p => .tuple [p.1, p.2]) false with
  | error e => rfl
  | ok o' =>
    simp only [uncacheInternal_apply (h := ⟨h.objs ++ [o']⟩) (x := y)
      (by rw [List.getElem?_append_left hyl]; exact hy)]
    by_cases hxy : x = y
    · subst hxy
      obtain rfl : oy = ox := Option.some.inj (hy.symm.trans hx)
      have hx' : ((h.objs ++ [o']).set x (oy.after .demote))[x]? = some (oy.after .demote) :=
        List.getElem?_set_self (by simp; omega)
      simp only [uncacheInternal_apply (h := ⟨_⟩) hx', after_demote_demote]
      rfl
    · have hx' : ((h.objs ++ [o']).set y (oy.after .demote))[x]? = some ox := by
        rw [List.getElem?_set_ne (Ne.symm hxy), List.getElem?_append_left hxl]
        exact hx
      simp only [uncacheInternal_apply (h := ⟨_⟩) hx']
      rfl

theorem zip_aligned (hx : h.objs[x]? = some ox) (hy : h.objs[y]? = some oy)
    (hrx : ox.rdd.computed = .ok ps) (hry : oy.rdd.computed = .ok qs)
    (hl : ps.map List.length = qs.map List.length) :
    zip env x y h = (.ok h.objs.length,
      ⟨((h.objs ++ [mk (Rdd.ofParts (zipPairs ps qs)) true false]).set y (oy.after .demote)).set x
        (ox.after .demote)⟩) := by
  rw [Rdd.computed_eq_ok_iff] at hrx hry
  have hk : ps.length = qs.length := by simpa using congrArg List.length hl
  rw [zip_apply hx hy (by rw [hrx, hry]; simpa using hk) (by rw [hrx, hry]; exact Rdd.zip_ofParts_aligned hl),
    Rdd.relabel_ofParts, init_of_computed (Rdd.computed_ofParts _)]
  rfl

/-- The zipped RDD of partitions that do not pair up fails where it is computed. -/
theorem zipped_misaligned {ps qs : List (List PyObj)} (hk : ps.length = qs.length)
    (hl : ps.map List.length ≠ qs.map List.length) :
    ∃ r e, (Rdd.ofParts ps).zip (Rdd.ofParts qs) = .ok r ∧
      (r.relabel fun p => PyObj.tuple [p.1, p.2]).computed = .error e := by
  obtain ⟨r, e, hr, hc⟩ := Rdd.zip_ofParts_misaligned hk hl
  exact ⟨r, e, hr, by rw [Rdd.computed_relabel, hc]; rfl⟩

theorem zip_misaligned_eager (he : env.eagerMode = true) (hx : h.objs[x]? = some ox)
    (hy : h.objs[y]? = some oy) (hrx : ox.rdd.computed = .ok ps) (hry : oy.rdd.computed = .ok qs)
    (hk : ps.length = qs.length) (hl : ps.map List.length ≠ qs.map List.length) :
    zip env x y h = (.error ⟨.valueError, zipMismatchMsg⟩, h) := by
  rw [Rdd.computed_eq_ok_iff] at hrx hry
  obtain ⟨r, e, hr, hc⟩ := zipped_misaligned hk hl
  rw [zip_apply hx hy (by rw [hrx, hry]; simpa using hk) (by rw [hrx, hry]; exact hr),
    init_of_eager he hc]

end Specs
end SparkXShards

end OrcaXShards
