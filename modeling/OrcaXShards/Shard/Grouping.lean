import OrcaXShards.Shard.RepartitionLaws
import OrcaXShards.Shard.Align

/-!
# `partition_by` groups the rows of a collection of frames by one column

`partition_by(c, n)` takes every frame apart into rows keyed by `row[c]`, sends each row to
partition `portable_hash(row[c]) % n` and rebuilds one frame per partition from the rows
that arrive there.  For frames of one schema whose column `c` holds hashable values it
returns `n` partitions, each holding at most one frame of the schema; together they hold the
source's rows, and rows with equal keys share a partition (`PartitionedRows`).

Three things stand between this and the rows as they were.  `hash` raises on a list, so
a list in column `c` fails the task.  Every row travels as `row.values.tolist()`: in a
frame whose columns are all int64 or float64, one of them float64, the int64 values travel
as doubles, so an integer beyond `2 ^ 53` comes back moved (`Schema.restoreRow`).  And
`pd.DataFrame(data=rows)` infers each column before `astype`: an object column whose rows
in one partition mix an integer with a float comes back as floats, and one that mixes
`None` with a number as NaN, so the statement asks for rows without such a pair
(`Unmixed`).
-/

namespace OrcaXShards

/-- The rows of a frame; nothing for another object. -/
def PyObj.frameRows : PyObj → List (List Scalar)
  | .frame df => df.rows
  | _ => []

/-- The key `row[c]` that `partition_by(c)` reads from a row of a frame with schema `s`. -/
def rowKey (s : Schema) (c : String) (r : List Scalar) : Scalar :=
  match rowAt s.columns (s.rowValues r) (.str c) with
  | .ok v => v
  | .error _ => .none

/-- The partition, out of `n`, that `partition_by(c)` sends a row to. -/
def rowBucket (env : Env) (s : Schema) (c : String) (n : Nat) (r : List Scalar) : Nat :=
  bucket (env.hash.portableOk (rowKey s c r)) n

/-! ## The keyed rows -/

section Keys

variable {s : Schema} {c : String} {r : List Scalar}

/-- The key of a row is its cell in column `c` as the row series holds it. -/
theorem rowKey_eq_upcast {v : Scalar} (hv : rowAt s.columns r (.str c) = .ok v) :
    rowAt s.columns (s.rowValues r) (.str c) = .ok (rowKey s c r) ∧
      rowKey s c r = v.upcast (DType.common s.dtypes) := by
  have hup : rowAt s.columns (s.rowValues r) (.str c) =
      .ok (v.upcast (DType.common s.dtypes)) := by
    rw [Schema.rowValues, rowAt_map, hv]
    rfl
  have hk : rowKey s c r = v.upcast (DType.common s.dtypes) := by rw [rowKey, hup]
  exact ⟨hk ▸ hup, hk⟩

theorem rowAt_rowKey (hc : Label.str c ∈ s.columns) (hr : s.Fits r) :
    rowAt s.columns (s.rowValues r) (.str c) = .ok (rowKey s c r) := by
  obtain ⟨v, hv⟩ := rowAt_ok hc (by rw [← hr.length_eq, s.length_eq])
  exact (rowKey_eq_upcast hv).1

/-- A key read from a hashable cell hashes. -/
theorem portable_rowKey (h : PyHash) (hc : Label.str c ∈ s.columns) (hr : s.Fits r)
    (hkey : ∀ v, rowAt s.columns r (.str c) = .ok v → v.hashable = true) :
    h.portable (rowKey s c r) = .ok (h.portableOk (rowKey s c r)) := by
  obtain ⟨v, hv⟩ := rowAt_ok hc (by rw [← hr.length_eq, s.length_eq])
  refine h.portable_of_hashable ?_
  rw [(rowKey_eq_upcast hv).2, Scalar.hashable_upcast]
  exact hkey v hv

/-- Rows whose column `c` holds equal values go to one partition. -/
theorem rowBucket_congr (env : Env) {r₁ r₂ : List Scalar} (h₁ : s.Fits r₁) (h₂ : s.Fits r₂) {v₁ v₂ : Scalar}
    (e₁ : rowAt s.columns r₁ (.str c) = .ok v₁) (e₂ : rowAt s.columns r₂ (.str c) = .ok v₂)
    (hv : v₁.pyEq v₂ = true) (n : Nat) : rowBucket env s c n r₁ = rowBucket env s c n r₂ := by
  obtain ⟨d, hd, f₁, f₂⟩ := rowAt_fits_same h₁ h₂ s.length_eq e₁ e₂
  unfold rowBucket
  rw [(rowKey_eq_upcast e₁).2, (rowKey_eq_upcast e₂).2, env.hash.portableOk_congr
    (Scalar.pyEq_upcast f₁ f₂ (fun hf => DType.common_float64 hf d hd) hv)]

end Keys

section Frames

variable {s : Schema} {ps : List (List PyObj)}
  (hframes : ∀ y ∈ ps.flatten, ∃ df : DataFrame, y = .frame df ∧ df.schema = s)

include hframes

theorem frameRows_fit : ∀ r ∈ ps.flatten.flatMap PyObj.frameRows, s.Fits r := by
  intro r hr
  obtain ⟨y, hy, hry⟩ := List.mem_flatMap.mp hr
  obtain ⟨df, rfl, rfl⟩ := hframes y hy
  exact df.rows_fit r hry

theorem getClassName_frames (hne : ps.flatten ≠ []) :
    getClassName (Rdd.ofParts ps) = .ok "pandas.core.frame.DataFrame" := by
  obtain ⟨y, ys, hys⟩ := List.exists_cons_of_ne_nil hne
  obtain ⟨df, hy, -⟩ := hframes y (by simp [hys])
  rw [getClassName_ofParts, hys, hy]
  rfl

theorem getSchema_ofParts (hne : ps.flatten ≠ []) : getSchema (Rdd.ofParts ps) = .ok s := by
  have hmap : (Rdd.ofParts ps).map PyObj.schemaOf = Rdd.ofParts (ps.map (List.map fun _ => s)) := by
    refine Rdd.map_ofParts_eq (List.forall₂_map_right_iff.mpr (List.forall₂_same.mpr fun p hp =>
      List.forall₂_map_right_iff.mpr (List.forall₂_same.mpr fun y hy => ?_)))
    obtain ⟨df, rfl, rfl⟩ := hframes y (List.mem_flatten.mpr ⟨p, hp, hy⟩)
    rfl
  rw [getSchema, hmap, Rdd.first_ofParts, ← List.map_flatten]
  obtain ⟨y, ys, hys⟩ := List.exists_cons_of_ne_nil hne
  rw [hys]
  rfl

/-- Every frame taken apart into the records `(row[c], row.values.tolist())`. -/
theorem keyedRowsOf_frames {c : String} (hc : Label.str c ∈ s.columns) :
    (Rdd.ofParts ps).flatMap (keyedRowsOf fun columns values => rowAt columns values (.str c)) =
      Rdd.ofParts (ps.map fun p => (p.flatMap PyObj.frameRows).map
        fun r => (rowKey s c r, s.rowValues r)) := by
  refine Rdd.mapPartitions_ofParts_eq (mapM_ok_iff_forall₂.mpr (List.forall₂_map_right_iff.mpr
    (List.forall₂_same.mpr fun p hp => ?_)))
  have hp' : p.mapM (keyedRowsOf fun columns values => rowAt columns values (.str c)) =
      .ok (p.map fun y => (PyObj.frameRows y).map fun r => (rowKey s c r, s.rowValues r)) := by
    refine mapM_ok_iff_forall₂.mpr (List.forall₂_map_right_iff.mpr
      (List.forall₂_same.mpr fun y hy => ?_))
    obtain ⟨df, rfl, rfl⟩ := hframes y (List.mem_flatten.mpr ⟨p, hp, hy⟩)
    show df.keyedRows (fun values => rowAt df.schema.columns values (.str c)) =
      .ok (df.rows.map fun r => (rowKey df.schema c r, df.schema.rowValues r))
    exact DataFrame.keyedRows_of_key df fun r hr => rowAt_rowKey hc (df.rows_fit r hr)
  rw [hp']
  simp [Except.map, List.flatMap, List.map_flatten, Function.comp_def]

end Frames

theorem partitionCount_pos {ps : List (List PyObj)} (hne : ps.flatten ≠ []) (np : Option Nat) :
    0 < partitionCount (Rdd.ofParts ps) np := by
  have : 0 < ps.length := List.length_pos.mpr fun h => hne (by simp [h])
  unfold partitionCount
  split <;> simp_all

/-! ## One frame per partition -/

/-- `merge(iterator)` on the records of some rows without mixed columns: one frame of those
rows as they come back from the round trip, or nothing when there is no row. -/
theorem mergeRows_rowValues {s : Schema} {rs : List (List Scalar)} (hfit : ∀ r ∈ rs, s.Fits r)
    (hmix : Unmixed rs) (K : List Scalar → Scalar) :
    ∃ out, mergeRows s (rs.map fun r => (K r, s.rowValues r)) = .ok out ∧
      (out = [] ∨ ∃ df : DataFrame, out = [.frame df] ∧ df.schema = s) ∧
      out.flatMap PyObj.frameRows = rs.map s.restoreRow := by
  cases rs with
  | nil => exact ⟨[], rfl, .inl rfl, rfl⟩
  | cons r rs =>
    obtain ⟨df, hdf, hs, hrows⟩ := DataFrame.fromRows_rowValues hfit hmix
    refine ⟨[.frame df], ?_, .inr ⟨df, rfl, hs⟩, by simp [PyObj.frameRows, hrows]⟩
    have hsnd : ((K r, s.rowValues r) :: rs.map fun r => (K r, s.rowValues r)).map Prod.snd =
        (r :: rs).map s.rowValues := by simp
    rw [List.map_cons]
    simp only [mergeRows]
    rw [hsnd, hdf]
    rfl

/-- The RDD `partition_by(c, num_partitions)` builds from computed frames of one schema whose
column `c` holds hashable values: partition `b` holds one frame of the rows sent to `b`, each
row as it comes back from the round trip, or nothing when no row goes there. -/
theorem partitionByRdd_frames (env : Env) {s : Schema} {ps : List (List PyObj)}
    (hframes : ∀ y ∈ ps.flatten, ∃ df : DataFrame, y = .frame df ∧ df.schema = s)
    (hne : ps.flatten ≠ []) {c : String} (hc : Label.str c ∈ s.columns)
    (hkey : ∀ r ∈ ps.flatten.flatMap PyObj.frameRows, ∀ v,
      rowAt s.columns r (.str c) = .ok v → v.hashable = true)
    (hmix : Unmixed (ps.flatten.flatMap PyObj.frameRows)) (np : Option Nat) :
    ∃ qs, partitionByRdd env (Rdd.ofParts ps) (.str c) np = .ok (Rdd.ofParts qs) ∧
      qs.length = partitionCount (Rdd.ofParts ps) np ∧
      ∀ b (hb : b < qs.length),
        (qs[b] = [] ∨ ∃ df : DataFrame, qs[b] = [.frame df] ∧ df.schema = s) ∧
        (qs[b].flatMap PyObj.frameRows).Perm
          (((ps.flatten.flatMap PyObj.frameRows).filter fun r =>
            rowBucket env s c (partitionCount (Rdd.ofParts ps) np) r = b).map s.restoreRow) := by
  have hfit := frameRows_fit hframes
  set rows := ps.flatten.flatMap PyObj.frameRows
  set n := partitionCount (Rdd.ofParts ps) np
  have hl : (ps.map fun p => (p.flatMap PyObj.frameRows).map
      fun r => (rowKey s c r, s.rowValues r)).flatten = rows.map fun r => (rowKey s c r, s.rowValues r) := by
    simp [rows, List.flatMap, List.map_flatten, List.flatten_flatten, Function.comp_def]
  obtain ⟨qs₀, hpb, hlen, hsel⟩ := Rdd.partitionBy_ofParts env.sch hl
    (fun r hr => portable_rowKey env.hash hc (hfit r hr) (hkey r hr)) n
  obtain ⟨outs, houts, hlen', hout⟩ := exists_mapM_ok_getElem (f := mergeRows s)
    (P := fun b out => (out = [] ∨ ∃ df : DataFrame, out = [.frame df] ∧ df.schema = s) ∧
      (out.flatMap PyObj.frameRows).Perm ((rows.filter fun r => rowBucket env s c n r = b).map
        s.restoreRow)) fun b hb => by
    obtain ⟨sel, hq, hperm⟩ := hsel b hb
    have hsub : sel ⊆ rows := fun r hr => List.mem_of_mem_filter (hperm.subset hr)
    obtain ⟨out, hout, hshape, hrows⟩ := mergeRows_rowValues
      (fun r hr => hfit r (hsub hr)) (hmix.mono hsub) (rowKey s c)
    exact ⟨out, hq ▸ hout, hshape, hrows ▸ hperm.map _⟩
  refine ⟨outs, ?_, hlen'.trans hlen, hout⟩
  simp only [partitionByRdd, getClassName_frames hframes hne, getSchema_ofParts hframes hne,
    bind, Except.bind, if_true, hc, not_true, if_false, keyedRowsOf_frames hframes hc, hpb, pure,
    Except.pure, Rdd.mapPartitions_ofParts_eq houts]

/-- What `partition_by(c, n)` returns from the rows `rows` of frames of schema `s`: `n`
partitions, each empty or one frame of the schema, holding every row once as it comes back
from the round trip, and a choice of partition for each row under which rows with equal
values in column `c` share a partition and each partition holds exactly its rows. -/
structure PartitionedRows (s : Schema) (c : String) (rows : List (List Scalar)) (n : Nat)
    (qs : List (List PyObj)) : Prop where
  length_eq : qs.length = n
  one_frame : ∀ q ∈ qs, q = [] ∨ ∃ df : DataFrame, q = [.frame df] ∧ df.schema = s
  rows_perm : (qs.flatten.flatMap PyObj.frameRows).Perm (rows.map s.restoreRow)
  grouped : ∃ bucketOf : List Scalar → Nat,
    (∀ r₁ ∈ rows, ∀ r₂ ∈ rows, ∀ v₁ v₂, rowAt s.columns r₁ (.str c) = .ok v₁ →
      rowAt s.columns r₂ (.str c) = .ok v₂ → v₁.pyEq v₂ = true → bucketOf r₁ = bucketOf r₂) ∧
    ∀ b (hb : b < qs.length), (qs[b].flatMap PyObj.frameRows).Perm
      ((rows.filter (bucketOf · = b)).map s.restoreRow)

namespace SparkXShards

/-- A derived collection whose RDD computes is returned in either mode, and computes. -/
theorem derive_computes (env : Env) {h : Heap} {x : Nat} {o : SparkXShards}
    (ho : h.objs[x]? = some o) (build : Rdd PyObj → Except PyError (Rdd PyObj))
    {qs : List (List PyObj)} (hb : build o.rdd = .ok (Rdd.ofParts qs)) :
    ∃ t h', derive env x build h = (.ok t, h') ∧ h'.Computes t qs := by
  have hxl := (List.getElem?_eq_some_iff.mp ho).1
  rw [derive_apply ho, hb]
  simp only [bind, Except.bind, init_of_computed (Rdd.computed_ofParts qs)]
  exact ⟨_, _, rfl, computes_fresh hxl (Rdd.computed_ofParts qs) _⟩

/-- A frame whose object column `k` holds a list. -/
def listKeyFrame : DataFrame :=
  ⟨⟨[.str "k"], [.object], rfl, by simp⟩, [[.list []]], fun r hr => by
    rw [List.mem_singleton.mp hr]
    exact .cons rfl .nil⟩

/-- A frame with an int64 column `a` holding `2 ^ 53 + 1` beside a float64 column `b`. -/
def wideIntFrame : DataFrame :=
  ⟨⟨[.str "a", .str "b"], [.int64, .float64], rfl, by simp⟩, [[.int (2 ^ 53 + 1), .float 0]],
    fun r hr => by
      rw [List.mem_singleton.mp hr]
      exact .cons (by decide) (.cons rfl .nil)⟩

theorem partition_by_groups_rows (env : Env) {h : Heap} {x : Nat} {ps : List (List PyObj)}
    (hx : h.Computes x ps) {s : Schema}
    (hframes : ∀ y ∈ ps.flatten, ∃ df : DataFrame, y = .frame df ∧ df.schema = s)
    (hne : ps.flatten ≠ []) {c : String} (hc : Label.str c ∈ s.columns)
    (hkey : ∀ r ∈ ps.flatten.flatMap PyObj.frameRows, ∀ v,
      rowAt s.columns r (.str c) = .ok v → v.hashable = true)
    (hmix : Unmixed (ps.flatten.flatMap PyObj.frameRows)) (np : Option Nat) :
    ∃ t h' qs, partitionBy env x (.str c) np h = (.ok t, h') ∧ h'.Computes t qs ∧
      PartitionedRows s c (ps.flatten.flatMap PyObj.frameRows)
        (partitionCount (Rdd.ofParts ps) np) qs := by
  obtain ⟨o, ho, hr⟩ := hx
  obtain ⟨qs, hrdd, hlen, hparts⟩ := partitionByRdd_frames env hframes hne hc hkey hmix np
  obtain ⟨t, h', hcall, hcomp⟩ := derive_computes env ho
    (fun rdd => partitionByRdd env rdd (.str c) np) (Rdd.computed_eq_ok_iff.mp hr ▸ hrdd)
  have hfit := frameRows_fit hframes
  have hflat : qs.flatten.flatMap PyObj.frameRows = (qs.map (·.flatMap PyObj.frameRows)).flatten := by
    simp [List.flatMap, List.map_flatten, List.flatten_flatten, Function.comp_def]
  refine ⟨t, h', qs, hcall, hcomp, hlen, fun q hq => ?_, ?_,
    rowBucket env s c (partitionCount (Rdd.ofParts ps) np), fun r₁ h₁ r₂ h₂ v₁ v₂ e₁ e₂ hv =>
      rowBucket_congr env (hfit r₁ h₁) (hfit r₂ h₂) e₁ e₂ hv _, fun b hb => (hparts b hb).2⟩
  · obtain ⟨b, hb, rfl⟩ := List.getElem_of_mem hq
    exact (hparts b hb).1
  · rw [hflat]
    refine flatten_perm_of_buckets (f := rowBucket env s c (partitionCount (Rdd.ofParts ps) np))
      (fun r _ => ?_) fun b hb => ?_
    · rw [List.length_map, hlen]
      exact bucket_lt _ (partitionCount_pos hne np)
    · rw [List.getElem_map]
      exact (hparts b (by simpa using hb)).2

theorem partition_by_groups_rows_on_wide_int :
    ∃ t h' qs, partitionBy (Env.simple true) 0 (.str "a") none
        ⟨[mk (Rdd.ofParts [[.frame wideIntFrame]]) true false]⟩ = (.ok t, h') ∧
      h'.Computes t qs ∧
      PartitionedRows wideIntFrame.schema "a" ([[PyObj.frame wideIntFrame]].flatten.flatMap PyObj.frameRows)
        (partitionCount (Rdd.ofParts [[.frame wideIntFrame]]) none) qs :=
  partition_by_groups_rows _ ⟨_, rfl, Rdd.computed_ofParts _⟩ (by simp) (by simp)
    (by simp [wideIntFrame]) (by simp [PyObj.frameRows, wideIntFrame, rowAt_cons, Scalar.hashable])
    (by decide) none

/-- A frame whose object column `a` holds the integer `2 ^ 53 + 1` in one row and the
float `1 / 2` in the other. -/
def mixedFrame : DataFrame :=
  ⟨⟨[.str "a"], [.object], rfl, by simp⟩, [[.int (2 ^ 53 + 1)], [.float (1 / 2)]], fun r hr => by
    simp only [List.mem_cons, List.mem_singleton, List.not_mem_nil, or_false] at hr
    rcases hr with rfl | rfl <;> exact .cons rfl .nil⟩

theorem partition_by_unhashable_key_or_wide_int :
    FailsOnCompute (Env.simple true) (partitionBy (Env.simple true) 0 (.str "k") none)
      ⟨[mk (Rdd.ofParts [[.frame listKeyFrame]]) true false]⟩
      ⟨.py4jJavaError, "unhashable type: 'list'"⟩ ∧
    (∃ t h' df, partitionBy (Env.simple true) 0 (.str "a") none
        ⟨[mk (Rdd.ofParts [[.frame wideIntFrame]]) true false]⟩ = (.ok t, h') ∧
      collect t h' = (.ok [.frame df], h') ∧ df.rows = [[.int (2 ^ 53), .float 0]]) ∧
    ∃ t h' df, partitionBy (Env.simple true) 0 (.str "a") none
        ⟨[mk (Rdd.ofParts [[.frame mixedFrame]]) true false]⟩ = (.ok t, h') ∧
      collect t h' = (.ok [.frame df], h') ∧ df.rows = [[.float (2 ^ 53)], [.float (1 / 2)]] :=
  ⟨⟨fun _ => rfl, nofun⟩, ⟨_, _, _, rfl, rfl, rfl⟩, ⟨_, _, _, rfl, rfl, rfl⟩⟩

end SparkXShards

end OrcaXShards
