import OrcaXShards.Shard.Grouping

/-!
# `repartition` on the layouts it handles

`RepartitionLaws` shows layouts on which `repartition(n)` fails a task.  This module shows
what it returns on the others, under every scheduler and in either mode, for `n ≥ 1`.

* Lists: `n` partitions holding one list each, the lists holding the source's items in
  some order.  The decrease path folds each coalesced group without a starting value, so it
  needs every source partition to hold a list (`repartition_lists`).
* Frames of one schema: `n` partitions, each empty or one frame of the schema.  The
  decrease path concatenates the frames of each group and keeps the rows as they were; the
  increase path sends each row through `row.values.tolist()` and rebuilds the frames with
  `pd.DataFrame`, so it needs `row[0]` to read a hashable value and no object column to mix
  an integer with a float or `None` with a number (`repartition_frames`).

Spark's `coalesce` and shuffles only move elements between partitions
(`Rdd.coalesce_ofParts`, `Rdd.repartition_ofParts`); what each branch keeps follows from
what it does to one partition.
-/

namespace OrcaXShards

/-- The items of a list; nothing for another object. -/
def PyObj.listItems : PyObj → List PyObj
  | .list xs => xs
  | _ => []

/-- What `repartition(n)` returns for a collection of lists holding `items`: `n`
partitions of one list each, the lists holding the items in some order. -/
structure RebalancedLists (n : Nat) (items : List PyObj) (qs : List (List PyObj)) : Prop where
  length_eq : qs.length = n
  one_list : ∀ q ∈ qs, ∃ xs, q = [.list xs]
  items_perm : (qs.flatten.flatMap PyObj.listItems).Perm items

/-- `flatMap(lambda data: data)` over elements that each iterate to `g y`: their items,
partition by partition. -/
theorem flatMap_iter_eq (g : PyObj → List PyObj) {ps : List (List PyObj)}
    (hg : ∀ y ∈ ps.flatten, y.iter = .ok (g y)) :
    (Rdd.ofParts ps).flatMap PyObj.iter = Rdd.ofParts (ps.map (·.flatMap g)) := by
  refine Rdd.mapPartitions_ofParts_eq (mapM_ok_iff_forall₂.mpr (List.forall₂_map_right_iff.mpr
    (List.forall₂_same.mpr fun p hp => ?_)))
  have hp' : p.mapM PyObj.iter = .ok (p.map g) :=
    mapM_ok_iff_forall₂.mpr (List.forall₂_map_right_iff.mpr (List.forall₂_same.mpr fun y hy =>
      hg y (List.mem_flatten.mpr ⟨p, hp, hy⟩)))
  rw [hp']
  rfl

/-- What `g` collects from each partition, one partition after another, is what it collects
from the elements. -/
theorem flatten_map_flatMap {α β : Type} (g : α → List β) (L : List (List α)) :
    (L.map (·.flatMap g)).flatten = L.flatten.flatMap g := by
  rw [List.flatten_eq_flatMap (L := L), List.flatMap_assoc]
  rfl

/-- `reduce(lambda l1, l2: l1 + l2, ...)` over lists from an accumulated list. -/
theorem foldlM_add_lists : ∀ (ys : List PyObj) (acc : List PyObj), (∀ y ∈ ys, ∃ xs, y = .list xs) →
    ys.foldlM PyObj.add (.list acc) = .ok (.list (acc ++ ys.flatMap PyObj.listItems))
  | [], acc, _ => by rw [List.flatMap_nil, List.append_nil]; rfl
  | y :: ys, acc, h => by
    obtain ⟨xs, rfl⟩ := h y (List.mem_cons_self _ _)
    rw [List.foldlM_cons]
    show (ys.foldlM PyObj.add (.list (acc ++ xs))) = _
    rw [foldlM_add_lists ys _ fun y' hy' => h y' (List.mem_cons_of_mem _ hy'), List.flatMap_cons,
      List.append_assoc]
    rfl

/-- Lists wrapped one to a partition hold their items. -/
theorem listItems_wrap : ∀ rs : List (List PyObj),
    ((rs.map fun r => [PyObj.list r]).flatten.flatMap PyObj.listItems) = rs.flatten
  | [] => rfl
  | r :: rs => by
    rw [List.map_cons, List.flatten_cons, List.flatMap_append, listItems_wrap rs]
    simp [PyObj.listItems]

/-- The RDD `repartition(n)` builds from computed partitions of lists: `n` partitions of
one list each, holding the items in some order.  The decrease path needs every partition
to hold a list. -/
theorem repartitionRdd_lists (env : Env) {ps : List (List PyObj)}
    (hlists : ∀ y ∈ ps.flatten, ∃ xs, y = .list xs) (hne : ps.flatten ≠ []) {n : Nat} (hn : 0 < n)
    (hdec : n ≤ ps.length → ∀ p ∈ ps, p ≠ []) :
    ∃ qs, repartitionRdd env (Rdd.ofParts ps) n = .ok (Rdd.ofParts qs) ∧
      RebalancedLists n (ps.flatten.flatMap PyObj.listItems) qs := by
  have hcls : getClassName (Rdd.ofParts ps) = .ok "list" := by
    obtain ⟨y, ys, hys⟩ := List.exists_cons_of_ne_nil hne
    obtain ⟨xs, hy⟩ := hlists y (by simp [hys])
    rw [getClassName_ofParts, hys, hy]
    rfl
  have hiter := flatMap_iter_eq PyObj.listItems fun y hy => by
    obtain ⟨xs, rfl⟩ := hlists y hy
    rfl
  simp only [repartitionRdd, hcls, bind, Except.bind]
  simp only [repartitionLists, Rdd.numPartitions_ofParts]
  by_cases hk : ps.length < n
  · obtain ⟨rs, hrs, hlen, hperm⟩ :=
      Rdd.repartition_ofParts env.sch (ps.map (·.flatMap PyObj.listItems)) hn
    refine ⟨rs.map fun r => [.list r], ?_, ⟨by simp [hlen], by simp, ?_⟩⟩
    · simp [hk, hiter, hrs, Rdd.mapPartitions_ofParts_eq (mapM_ok_map _ _)]
    · rwa [listItems_wrap, ← flatten_map_flatMap]
  · obtain ⟨cs, hcs, hlen, hperm, hnon⟩ := Rdd.coalesce_ofParts env.sch ps hn (by omega)
    have hmem : ∀ c ∈ cs, ∀ y ∈ c, ∃ xs, y = .list xs := fun c hc y hy =>
      hlists y (hperm.subset (List.mem_flatten.mpr ⟨c, hc, hy⟩))
    have hred : cs.mapM (fun xs => (pyReduce PyObj.add xs).map ([·])) =
        .ok ((cs.map (·.flatMap PyObj.listItems)).map fun r => [.list r]) := by
      rw [List.map_map]
      refine mapM_ok_iff_forall₂.mpr (List.forall₂_map_right_iff.mpr
        (List.forall₂_same.mpr fun c hc => ?_))
      obtain ⟨y, ys, rfl⟩ := List.exists_cons_of_ne_nil (hnon (hdec (by omega)) c hc)
      obtain ⟨xs, rfl⟩ := hmem _ hc y (List.mem_cons_self _ _)
      rw [pyReduce, foldlM_add_lists ys xs fun y' hy' => hmem _ hc y' (List.mem_cons_of_mem _ hy')]
      rfl
    refine ⟨(cs.map (·.flatMap PyObj.listItems)).map fun r => [.list r], ?_,
      ⟨by simp [hlen], by simp, ?_⟩⟩
    · simp [hk, hcs, Rdd.mapPartitions_ofParts_eq hred]
    · rw [listItems_wrap, flatten_map_flatMap]
      exact hperm.flatMap_right _

/-- What `repartition(n)` returns for a collection of frames of schema `s` holding `rows`:
`n` partitions, each empty or one frame of the schema, holding the rows in some order. -/
structure RebalancedFrames (s : Schema) (n : Nat) (rows : List (List Scalar))
    (qs : List (List PyObj)) : Prop where
  length_eq : qs.length = n
  one_frame : ∀ q ∈ qs, q = [] ∨ ∃ df : DataFrame, q = [.frame df] ∧ df.schema = s
  rows_perm : (qs.flatten.flatMap PyObj.frameRows).Perm rows

/-- `pd.concat` of frames of one schema: their rows one after another. -/
theorem DataFrame.concat_of_schema {df : DataFrame} {dfs : List DataFrame}
    (h : ∀ x ∈ dfs, x.schema = df.schema) :
    ∃ c : DataFrame, DataFrame.concat (df :: dfs) = .ok c ∧ c.schema = df.schema ∧
      c.rows = (df :: dfs).flatMap (·.rows) := by
  rw [DataFrame.concat, dif_pos h]
  exact ⟨_, rfl, rfl, rfl⟩

/-- A list whose every item is the image of something with a property is the image of a
list of such things. -/
theorem exists_eq_map {α β : Type} {f : α → β} {P : α → Prop} :
    ∀ {xs : List β}, (∀ y ∈ xs, ∃ a, y = f a ∧ P a) → ∃ zs : List α, xs = zs.map f ∧ ∀ a ∈ zs, P a
  | [], _ => ⟨[], rfl, by simp⟩
  | y :: ys, h => by
    obtain ⟨a, rfl, ha⟩ := h y (List.mem_cons_self _ _)
    obtain ⟨zs, rfl, hzs⟩ := exists_eq_map fun y' hy' => h y' (List.mem_cons_of_mem _ hy')
    exact ⟨a :: zs, rfl, List.forall_mem_cons.mpr ⟨ha, hzs⟩⟩

/-- Outputs of one shape `P` each, each keeping through `g` what `G` reads from its input
partition: between them they keep all of it, in order. -/
theorem outputs_of_forall₂ {α β γ : Type} {P : List β → Prop} {g : β → List γ} {G : α → List γ}
    {cs : List α} {outs : List (List β)}
    (hF : List.Forall₂ (fun c out => P out ∧ out.flatMap g = G c) cs outs) :
    (∀ q ∈ outs, P q) ∧ outs.flatten.flatMap g = (cs.map G).flatten := by
  induction hF with
  | nil => simp
  | cons h _ ih => exact ⟨List.forall_mem_cons.mpr ⟨h.1, ih.1⟩, by simp [h.2, ih.2]⟩

/-- `combine_df` of a partition of frames of schema `s`: one frame holding their rows in
order, nothing for an empty partition. -/
theorem combineDf_frames {s : Schema} {c : List PyObj}
    (hc : ∀ y ∈ c, ∃ df : DataFrame, y = .frame df ∧ df.schema = s) :
    ∃ out, combineDf c = .ok out ∧
      (out = [] ∨ ∃ df : DataFrame, out = [.frame df] ∧ df.schema = s) ∧
      out.flatMap PyObj.frameRows = c.flatMap PyObj.frameRows := by
  obtain ⟨dfs, rfl, hs⟩ := exists_eq_map hc
  cases dfs with
  | nil => exact ⟨[], rfl, .inl rfl, rfl⟩
  | cons df dfs =>
    have hframes : ((df :: dfs).map PyObj.frame).mapM PyObj.asFrame = .ok (df :: dfs) :=
      mapM_ok_iff_forall₂.mpr (List.forall₂_map_left_iff.mpr (List.forall₂_same.mpr fun _ _ => rfl))
    have hsame : ∀ x ∈ dfs, x.schema = df.schema := fun x hx =>
      (hs x (List.mem_cons_of_mem _ hx)).trans (hs df (List.mem_cons_self _ _)).symm
    obtain ⟨cdf, hcdf, hsch, hrows⟩ := DataFrame.concat_of_schema hsame
    refine ⟨[.frame cdf], ?_, .inr ⟨cdf, rfl, hsch.trans (hs df (List.mem_cons_self _ _))⟩, ?_⟩
    · show ((_ : List PyObj).mapM PyObj.asFrame >>= DataFrame.concat).map _ = _
      rw [← List.map_cons, hframes]
      simp only [bind, Except.bind, hcdf]
      rfl
    · simp [PyObj.frameRows, List.flatMap_map, hrows]

/-- The RDD `repartition(n)` builds on the decrease path from computed frames of one
schema: `n` partitions, each empty or one frame of the schema, holding the rows as they
were. -/
theorem repartitionRdd_frames_coalesce (env : Env) {s : Schema} {ps : List (List PyObj)}
    (hframes : ∀ y ∈ ps.flatten, ∃ df : DataFrame, y = .frame df ∧ df.schema = s)
    (hne : ps.flatten ≠ []) {n : Nat} (hn : 0 < n) (hnk : n ≤ ps.length) :
    ∃ qs, repartitionRdd env (Rdd.ofParts ps) n = .ok (Rdd.ofParts qs) ∧
      RebalancedFrames s n (ps.flatten.flatMap PyObj.frameRows) qs := by
  obtain ⟨cs, hcs, hlen, hperm, -⟩ := Rdd.coalesce_ofParts env.sch ps hn hnk
  obtain ⟨outs, houts, hF⟩ := exists_mapM_ok_forall₂ fun c hc =>
    combineDf_frames fun y hy => hframes y (hperm.subset (List.mem_flatten.mpr ⟨c, hc, hy⟩))
  obtain ⟨hshape, hrows⟩ := outputs_of_forall₂ hF
  rw [flatten_map_flatMap] at hrows
  refine ⟨outs, ?_, ⟨hF.length_eq.symm.trans hlen, hshape, hrows ▸ hperm.flatMap_right _⟩⟩
  simp [repartitionRdd, getClassName_frames hframes hne, repartitionFrames, hcs,
    Rdd.mapPartitions_ofParts_eq houts, not_lt.mpr hnk, bind, Except.bind, pure, Except.pure]

/-- The key `row[0]` that the increase path of `repartition` reads from a row of a frame with
schema `s`. -/
def rowKeyZero (s : Schema) (r : List Scalar) : Scalar :=
  match rowAtZero s.columns (s.rowValues r) with
  | .ok v => v
  | .error _ => .none

/-- A cell-wise map of the row commutes with `row[0]`. -/
theorem rowAtZero_map (f : Scalar → Scalar) (cs : List Label) (vs : List Scalar) :
    rowAtZero cs (vs.map f) = (rowAtZero cs vs).map f := by
  unfold rowAtZero
  split
  · rw [List.zip_map_right, List.find?_map]
    have hp : ((fun p : Label × Scalar => decide (p.1 = Label.int 0)) ∘ Prod.map id f) =
        fun p => decide (p.1 = .int 0) := rfl
    rw [hp]
    cases (cs.zip vs).find? (fun p => p.1 = .int 0) <;> rfl
  · cases vs <;> rfl

section Keyed

variable {s : Schema} {ps : List (List PyObj)}
  (hframes : ∀ y ∈ ps.flatten, ∃ df : DataFrame, y = .frame df ∧ df.schema = s)
include hframes

/-- Every frame taken apart into the records `(key(row), row.values.tolist())`, for a key
that reads a value from every row. -/
theorem keyedRowsOf_frames_key {key : List Label → List Scalar → Except PyError Scalar}
    {K : List Scalar → Scalar}
    (hK : ∀ r ∈ ps.flatten.flatMap PyObj.frameRows, key s.columns (s.rowValues r) = .ok (K r)) :
    (Rdd.ofParts ps).flatMap (keyedRowsOf key) =
      Rdd.ofParts (ps.map fun p => (p.flatMap PyObj.frameRows).map fun r => (K r, s.rowValues r)) := by
  refine Rdd.mapPartitions_ofParts_eq (mapM_ok_iff_forall₂.mpr (List.forall₂_map_right_iff.mpr
    (List.forall₂_same.mpr fun p hp => ?_)))
  have hp' : p.mapM (keyedRowsOf key) =
      .ok (p.map fun y => (PyObj.frameRows y).map fun r => (K r, s.rowValues r)) := by
    refine mapM_ok_iff_forall₂.mpr (List.forall₂_map_right_iff.mpr
      (List.forall₂_same.mpr fun y hy => ?_))
    have hyp : y ∈ ps.flatten := List.mem_flatten.mpr ⟨p, hp, hy⟩
    obtain ⟨df, rfl, rfl⟩ := hframes y hyp
    exact DataFrame.keyedRows_of_key df fun r hr =>
      hK r (List.mem_flatMap.mpr ⟨_, hyp, hr⟩)
  rw [hp']
  simp [Except.map, List.flatMap, List.map_flatten, Function.comp_def]

/-- Hash partitioning the keyed rows of computed frames of one schema into `n` partitions,
then `merge_rows` on each: `n` partitions, each empty or one frame of the schema, holding
every row once as it comes back from the round trip. -/
theorem mergeRows_partitionBy_frames (env : Env)
    {key : List Label → List Scalar → Except PyError Scalar} {K : List Scalar → Scalar}
    (hK : ∀ r ∈ ps.flatten.flatMap PyObj.frameRows,
      key s.columns (s.rowValues r) = .ok (K r) ∧ (K r).hashable = true)
    (hmix : Unmixed (ps.flatten.flatMap PyObj.frameRows)) {n : Nat} (hn : 0 < n) :
    ∃ qs, (((Rdd.ofParts ps).flatMap (keyedRowsOf key)).partitionBy env.sch env.hash.portable
        n).mapPartitions (mergeRows s) = Rdd.ofParts qs ∧
      RebalancedFrames s n ((ps.flatten.flatMap PyObj.frameRows).map s.restoreRow) qs := by
  have hfit := frameRows_fit hframes
  set rows := ps.flatten.flatMap PyObj.frameRows
  have hl : (ps.map fun p => (p.flatMap PyObj.frameRows).map
      fun r => (K r, s.rowValues r)).flatten = rows.map fun r => (K r, s.rowValues r) := by
    rw [show rows = (ps.map (·.flatMap PyObj.frameRows)).flatten from
      (flatten_map_flatMap _ _).symm, List.map_flatten, List.map_map]
    rfl
  obtain ⟨qs₀, hpb, hlen, hsel⟩ := Rdd.partitionBy_ofParts env.sch hl
    (fun r hr => env.hash.portable_of_hashable (hK r hr).2) n
  let bucketOf := fun r => bucket (env.hash.portableOk (K r)) n
  obtain ⟨outs, houts, hlen', hout⟩ := exists_mapM_ok_getElem (f := mergeRows s)
    (P := fun b out => (out = [] ∨ ∃ df : DataFrame, out = [.frame df] ∧ df.schema = s) ∧
      (out.flatMap PyObj.frameRows).Perm ((rows.filter (bucketOf · = b)).map s.restoreRow))
    fun b hb => by
      obtain ⟨sel, hq, hperm⟩ := hsel b hb
      have hsub : sel ⊆ rows := fun r hr => List.mem_of_mem_filter (hperm.subset hr)
      obtain ⟨out, hout, hshape, hrows⟩ := mergeRows_rowValues
        (fun r hr => hfit r (hsub hr)) (hmix.mono hsub) K
      exact ⟨out, hq ▸ hout, hshape, hrows ▸ hperm.map _⟩
  have hflat := (flatten_map_flatMap PyObj.frameRows outs).symm
  refine ⟨outs, by rw [keyedRowsOf_frames_key hframes fun r hr => (hK r hr).1, hpb,
    Rdd.mapPartitions_ofParts_eq houts], hlen'.trans hlen, fun q hq => ?_, ?_⟩
  · obtain ⟨b, hb, rfl⟩ := List.getElem_of_mem hq
    exact (hout b hb).1
  · rw [hflat]
    refine flatten_perm_of_buckets (f := bucketOf) (fun r _ => ?_) fun b hb => ?_
    · rw [List.length_map, hlen', hlen]
      exact bucket_lt _ hn
    · rw [List.getElem_map]
      exact (hout b (by simpa using hb)).2

end Keyed

/-- The RDD `repartition(n)` builds on the increase path from computed frames of one schema
whose `row[0]` reads a hashable value from every row and whose object columns mix no
integer with a float and no `None` with a number: `n` partitions, each empty or one frame
of the schema, holding every row once as it comes back from `row.values.tolist()`. -/
theorem repartitionRdd_frames_shuffle (env : Env) {s : Schema} {ps : List (List PyObj)}
    (hframes : ∀ y ∈ ps.flatten, ∃ df : DataFrame, y = .frame df ∧ df.schema = s)
    (hne : ps.flatten ≠ []) {n : Nat} (hkn : ps.length < n)
    (hkey : ∀ r ∈ ps.flatten.flatMap PyObj.frameRows,
      ∃ v, rowAtZero s.columns r = .ok v ∧ v.hashable = true)
    (hmix : Unmixed (ps.flatten.flatMap PyObj.frameRows)) :
    ∃ qs, repartitionRdd env (Rdd.ofParts ps) n = .ok (Rdd.ofParts qs) ∧
      RebalancedFrames s n ((ps.flatten.flatMap PyObj.frameRows).map s.restoreRow) qs := by
  have hK : ∀ r ∈ ps.flatten.flatMap PyObj.frameRows,
      rowAtZero s.columns (s.rowValues r) = .ok (rowKeyZero s r) ∧ (rowKeyZero s r).hashable = true := by
    intro r hr
    obtain ⟨v, hv, hh⟩ := hkey r hr
    have hup : rowAtZero s.columns (s.rowValues r) = .ok (v.upcast (DType.common s.dtypes)) := by
      rw [Schema.rowValues, rowAtZero_map, hv]
      rfl
    rw [rowKeyZero, hup, Scalar.hashable_upcast]
    exact ⟨rfl, hh⟩
  obtain ⟨qs, hqs, hreb⟩ := mergeRows_partitionBy_frames hframes env hK hmix (by omega : 0 < n)
  refine ⟨qs, ?_, hreb⟩
  simp [repartitionRdd, getClassName_frames hframes hne, repartitionFrames, hkn,
    getSchema_ofParts hframes hne, hqs, bind, Except.bind, pure, Except.pure]

/-! ## The collections `repartition` returns -/

namespace SparkXShards

variable (env : Env) {h : Heap} {x : Nat} {ps : List (List PyObj)}

/-- A `repartition(n)` whose RDD computes returns in either mode a collection that
computes. -/
theorem repartition_computes (hx : h.Computes x ps) {n : Nat} {qs : List (List PyObj)}
    (hb : repartitionRdd env (Rdd.ofParts ps) n = .ok (Rdd.ofParts qs)) :
    ∃ t h', repartition env x n h = (.ok t, h') ∧ h'.Computes t qs := by
  obtain ⟨o, ho, hr⟩ := hx
  exact derive_computes env ho _ (Rdd.computed_eq_ok_iff.mp hr ▸ hb)

/-- `repartition(n)` of a collection of lists, under every scheduler and in either mode:
on the increase path, and on the decrease path when no partition is empty, `n` partitions
of one list each, the lists holding the source's items in some order. -/
theorem repartition_lists (hx : h.Computes x ps) (hlists : ∀ y ∈ ps.flatten, ∃ xs, y = .list xs)
    (hne : ps.flatten ≠ []) {n : Nat} (hn : 0 < n) (hdec : n ≤ ps.length → ∀ p ∈ ps, p ≠ []) :
    ∃ t h' qs, repartition env x n h = (.ok t, h') ∧ h'.Computes t qs ∧
      RebalancedLists n (ps.flatten.flatMap PyObj.listItems) qs := by
  obtain ⟨qs, hrdd, hq⟩ := repartitionRdd_lists env hlists hne hn hdec
  obtain ⟨t, h', hcall, hcomp⟩ := repartition_computes env hx hrdd
  exact ⟨t, h', qs, hcall, hcomp, hq⟩

theorem repartition_lists_on_two_parts :
    ∃ t h' qs, repartition (Env.simple true) 0 1
        ⟨[mk (Rdd.ofParts [[.list [.int 1]], [.list [.int 2, .int 3]]]) true false]⟩ = (.ok t, h') ∧
      h'.Computes t qs ∧
      RebalancedLists 1 ([[PyObj.list [.int 1]], [.list [.int 2, .int 3]]].flatten.flatMap
        PyObj.listItems) qs :=
  repartition_lists _ ⟨_, rfl, Rdd.computed_ofParts _⟩ (by simp) (by simp) (by decide)
    fun _ => by simp

/-- `repartition(n)` of a collection of frames of one schema, under every scheduler and in
either mode: `n` partitions, each empty or one frame of the schema.  On the decrease path
they hold the source's rows as they were.  On the increase path they hold each row as it
comes back from `row.values.tolist()`, when `row[0]` reads a hashable value from every row
and no object column mixes an integer with a float or `None` with a number. -/
theorem repartition_frames (hx : h.Computes x ps) {s : Schema}
    (hframes : ∀ y ∈ ps.flatten, ∃ df : DataFrame, y = .frame df ∧ df.schema = s)
    (hne : ps.flatten ≠ []) {n : Nat} (hn : 0 < n)
    (hkey : ps.length < n → ∀ r ∈ ps.flatten.flatMap PyObj.frameRows,
      ∃ v, rowAtZero s.columns r = .ok v ∧ v.hashable = true)
    (hmix : ps.length < n → Unmixed (ps.flatten.flatMap PyObj.frameRows)) :
    ∃ t h' qs, repartition env x n h = (.ok t, h') ∧ h'.Computes t qs ∧
      RebalancedFrames s n (if ps.length < n then (ps.flatten.flatMap PyObj.frameRows).map s.restoreRow
        else ps.flatten.flatMap PyObj.frameRows) qs := by
  by_cases hkn : ps.length < n
  · obtain ⟨qs, hrdd, hq⟩ := repartitionRdd_frames_shuffle env hframes hne hkn (hkey hkn) (hmix hkn)
    obtain ⟨t, h', hcall, hcomp⟩ := repartition_computes env hx hrdd
    exact ⟨t, h', qs, hcall, hcomp, by rwa [if_pos hkn]⟩
  · obtain ⟨qs, hrdd, hq⟩ := repartitionRdd_frames_coalesce env hframes hne hn (by omega)
    obtain ⟨t, h', hcall, hcomp⟩ := repartition_computes env hx hrdd
    exact ⟨t, h', qs, hcall, hcomp, by rwa [if_neg hkn]⟩

/-- A frame with two int64 columns `a` and `b`, holding two rows. -/
def pairFrame : DataFrame :=
  ⟨⟨[.str "a", .str "b"], [.int64, .int64], rfl, by simp⟩, [[.int 1, .int 2], [.int 3, .int 4]],
    fun r hr => by
      simp only [List.mem_cons, List.mem_singleton, List.not_mem_nil, or_false] at hr
      rcases hr with rfl | rfl <;> exact .cons (by decide) (.cons (by decide) .nil)⟩

theorem repartition_frames_on_pair :
    ∃ t h' qs, repartition (Env.simple true) 0 2
        ⟨[mk (Rdd.ofParts [[.frame pairFrame]]) true false]⟩ = (.ok t, h') ∧ h'.Computes t qs ∧
      RebalancedFrames pairFrame.schema 2
        (if [[PyObj.frame pairFrame]].length < 2 then
          ([[PyObj.frame pairFrame]].flatten.flatMap PyObj.frameRows).map pairFrame.schema.restoreRow
        else [[PyObj.frame pairFrame]].flatten.flatMap PyObj.frameRows) qs :=
  repartition_frames _ ⟨_, rfl, Rdd.computed_ofParts _⟩ (by simp) (by simp) (by decide)
    (fun _ => by simp [PyObj.frameRows, pairFrame, rowAtZero, Label.isInt, Scalar.hashable])
    fun _ => by decide

end SparkXShards

end OrcaXShards
