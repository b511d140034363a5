import OrcaXShards.Shard.Repartition

/-!
# `repartition` on layouts it does not handle

`repartition(n)` builds the new RDD lazily, and the constructor of the new collection
computes it only in eager mode.  A task that fails therefore makes `repartition` raise in
eager mode, and makes the collection it returns fail on its first `collect()` in lazy
mode (`FailsOnCompute`).

Three layouts fail in this way under every scheduler.  On the decrease path the list and
array branches fold each coalesced group without a starting value, so a group that holds
no element fails; coalescing `k` partitions into `k` leaves every partition in a group of
its own, so an empty partition is such a group.  The frame branch guards the empty group
(`combine_df` returns the empty iterator), but its increase path keys each row by
`row[0]`, which pandas reads as the label `0` as soon as one column label is an integer.
-/

namespace OrcaXShards
namespace SparkXShards

/-- How a call that builds a collection on a failing task fails: in eager mode it raises
`e` and leaves every collection as it was; in lazy mode it returns a collection whose
`collect()` raises `e`. -/
def FailsOnCompute (env : Env) (m : Call Nat) (h : Heap) (e : PyError) : Prop :=
  (env.eagerMode = true → m h = (.error e, h)) ∧
  (env.eagerMode = false → ∃ t h', m h = (.ok t, h') ∧ (collect t h').1 = .error e)

/-- A derived collection whose RDD fails a task fails the call or its first `collect()`. -/
theorem derive_fails {env : Env} {h : Heap} {x : Nat} {o : SparkXShards}
    (ho : h.objs[x]? = some o) {build : Rdd PyObj → Except PyError (Rdd PyObj)} {r : Rdd PyObj}
    (hb : build o.rdd = .ok r) {e : PyError} (hr : r.computed = .error e)
    (hk : e.kind ≠ .pairBatches) :
    FailsOnCompute env (derive env x build) h e.onDriver := by
  have hxl := (List.getElem?_eq_some_iff.mp ho).1
  constructor
  · intro he
    rw [derive_apply ho, hb]
    simp only [bind, Except.bind, init_of_eager he hr]
  · intro he
    refine ⟨h.objs.length, ⟨(h.objs ++ [mk r true false]).set x (o.after .demote)⟩, ?_, ?_⟩
    · rw [derive_apply ho, hb]
      simp only [bind, Except.bind, init_of_lazy (Or.inl he)]
      rfl
    · rw [collect, query_apply (o := mk r true false) (by rw [List.getElem?_set_ne (by omega)]; simp),
        Rdd.collect_of_error hr hk]

/-! ## Failing layouts -/

/-- One list in the first of two partitions, the second empty: `repartition(2)` takes the
decrease path, every scheduler coalesces each partition into a group of its own, and
`reduce` of the empty group raises. -/
theorem repartition_lists_empty_group (env : Env) :
    FailsOnCompute env (repartition env 0 2) ⟨[mk (Rdd.ofParts [[.list [.int 1]], []]) true false]⟩
      ⟨.py4jJavaError, "reduce() of empty sequence with no initial value"⟩ := by
  obtain ⟨r, hco, hparts, hmem⟩ := Rdd.coalesce_self_mapPartitions env.sch
    (show 0 < [[PyObj.list [.int 1]], []].length by decide)
    (fun xs => (pyReduce PyObj.add xs).map ([·]))
  refine derive_fails rfl ?_ (Rdd.computed_of_error_mem (hmem [] (by simp)) ?_) (by decide)
  · simp only [List.length_cons, List.length_nil, Nat.reduceAdd] at hco
    simp [repartitionRdd, getClassName_ofParts, PyObj.className, repartitionLists, hco, bind,
      Except.bind, pure, Except.pure]
  · intro p hp
    obtain ⟨q, hq, rfl⟩ := hparts p hp
    simp only [List.mem_cons, List.mem_singleton, List.not_mem_nil, or_false] at hq
    rcases hq with rfl | rfl
    · exact .inr ⟨_, rfl⟩
    · exact .inl rfl

/-- One array of shape `(1,)` in the first of two partitions, the second empty:
`repartition(2)` takes the decrease path and `np.concatenate` of the empty group
raises. -/
theorem repartition_arrays_empty_group (env : Env) :
    FailsOnCompute env (repartition env 0 2)
      ⟨[mk (Rdd.ofParts [[.ndarray ⟨.int64, [1], [.int 5], rfl⟩], []]) true false]⟩
      ⟨.py4jJavaError, "need at least one array to concatenate"⟩ := by
  obtain ⟨r, hco, hparts, hmem⟩ := Rdd.coalesce_self_mapPartitions env.sch
    (show 0 < [[PyObj.ndarray ⟨.int64, [1], [.int 5], rfl⟩], []].length by decide) concatRows
  refine derive_fails rfl ?_ (Rdd.computed_of_error_mem (hmem [] (by simp)) ?_) (by decide)
  · simp only [List.length_cons, List.length_nil, Nat.reduceAdd] at hco
    simp [repartitionRdd, getClassName_ofParts, PyObj.className, repartitionArrays,
      Rdd.first_ofParts, hco, bind, Except.bind, pure, Except.pure]
  · intro p hp
    obtain ⟨q, hq, rfl⟩ := hparts p hp
    simp only [List.mem_cons, List.mem_singleton, List.not_mem_nil, or_false] at hq
    rcases hq with rfl | rfl
    · exact .inr ⟨_, rfl⟩
    · exact .inl rfl

/-- A frame with one int64 column labelled `1`, holding one row. -/
def labelOneFrame : DataFrame :=
  ⟨⟨[.int 1], [.int64], rfl, by simp⟩, [[.int 5]], fun r hr => by
    rw [List.mem_singleton.mp hr]
    exact .cons (by decide) .nil⟩

/-- One frame whose only column is labelled `1`: `repartition(2)` takes the increase
path, where `row[0]` looks the integer `0` up as a label and raises `KeyError`. -/
theorem repartition_frames_missing_label (env : Env) :
    FailsOnCompute env (repartition env 0 2) ⟨[mk (Rdd.ofParts [[.frame labelOneFrame]]) true false]⟩
      ⟨.py4jJavaError, "0"⟩ := by
  have hb : repartitionRdd env (Rdd.ofParts [[.frame labelOneFrame]]) 2 =
      .ok ((((Rdd.ofParts [[PyObj.frame labelOneFrame]]).flatMap (keyedRowsOf rowAtZero)).partitionBy
        env.sch env.hash.portable 2).mapPartitions (mergeRows labelOneFrame.schema)) := by
    have hs : getSchema (Rdd.ofParts [[.frame labelOneFrame]]) = .ok labelOneFrame.schema := rfl
    simp [repartitionRdd, getClassName_ofParts, PyObj.className, repartitionFrames, hs, bind,
      Except.bind, pure, Except.pure]
  exact derive_fails (e := ⟨.keyError, "0"⟩) rfl hb (by rfl) (by decide)

end SparkXShards
end OrcaXShards
