import OrcaXShards.Shard.Rebalance

/-!
# Jobs on any layout, and what raises at the call

`__len__()` runs one Spark job: each partition sums its elements' lengths and the driver
adds the partitions' sums.  Addition is associative, so the result is the sum over all
elements whatever the layout (`len_sum`), by the reduce law of `Rdd`.

Two inputs make the driver-side code raise before any collection is built, in either
mode, with every collection left as it was.  A collection with no element fails every
method that reads its first element or reduces it (`empty_collection_raises`), and
`repartition(0)` fails Spark's requirement on the partition count
(`repartition_zero_raises`).  `partition_by` checks its arguments against the first
frame before it builds anything, and raises the source's `Exception` for the first check
that fails (`partitionBy_checks`).
-/

namespace OrcaXShards

namespace SparkXShards

/-- `__len__()` of a collection whose elements each have a length, or count one without
`__len__`, in any layout: the sum of the lengths, or `ValueError` when there is no
element.  It touches no collection. -/
theorem len_sum {h : Heap} {x : Nat} {ps : List (List PyObj)} (hx : h.Computes x ps)
    {ns : List (List Nat)}
    (hns : List.Forall₂ (List.Forall₂ fun e n => (if e.hasLen then e.len else .ok 1) = .ok n) ps ns) :
    len x h = (if ps.flatten.isEmpty then .error ⟨.valueError, "Can not reduce() empty RDD"⟩
      else .ok ns.flatten.sum, h) := by
  obtain ⟨o, ho, hr⟩ := hx
  rw [Rdd.computed_eq_ok_iff] at hr
  have hmap : o.rdd.map (fun d => if d.hasLen then d.len else .ok 1) = Rdd.ofParts ns := by
    rw [hr]
    exact Rdd.map_ofParts_eq hns
  have hlen : ps.flatten.length = ns.flatten.length := (List.rel_flatten hns).length_eq
  rw [len, query_apply ho, hmap]
  split_ifs with hnil
  · rw [List.isEmpty_iff] at hnil
    rw [Rdd.reduce_ofParts_nil _ (List.length_eq_zero.mp (hlen ▸ congrArg List.length hnil))]
  · rw [List.isEmpty_iff] at hnil
    obtain ⟨b, bs, hb⟩ := List.exists_cons_of_ne_nil fun h => hnil (List.length_eq_zero.mp
      (hlen.trans (congrArg List.length h)))
    have hred := @Rdd.reduce_ofParts_of_assoc Nat Nat (fun a b => .ok (a + b)) (fun _ => True)
      (· + ·) id (fun _ _ _ _ => rfl) (fun _ _ _ _ => trivial)
      (fun a b c _ _ _ => Nat.add_assoc a b c) _ (fun _ _ => trivial) _ _ hb
    rw [List.map_id'' fun l => List.map_id l] at hred
    rw [hred, hb, List.sum_eq_foldl, List.foldl_cons, Nat.zero_add]
    rfl

theorem len_sum_on_mixed :
    len 0 ⟨[mk (Rdd.ofParts [[.list [.int 1], .str "ab"], [.int 5]]) true false]⟩ =
      (if [[PyObj.list [.int 1], .str "ab"], [.int 5]].flatten.isEmpty then
        .error ⟨.valueError, "Can not reduce() empty RDD"⟩ else .ok [[1, 2], [1]].flatten.sum,
        ⟨[mk (Rdd.ofParts [[.list [.int 1], .str "ab"], [.int 5]]) true false]⟩) :=
  len_sum ⟨_, rfl, Rdd.computed_ofParts _⟩ (.cons (.cons rfl (.cons rfl .nil)) (.cons (.cons rfl .nil) .nil))

/-- `partition_by(cols, num_partitions)` checks, at the call and in order, that the first
element is a frame, that `cols` is a column name, and that the first frame has that column;
the first check that fails raises its `Exception`, in either mode, leaving every collection
as it was. -/
theorem partitionBy_checks (env : Env) {h : Heap} {x : Nat} {ps : List (List PyObj)}
    (hx : h.Computes x ps) (cols : PyObj) (np : Option Nat) :
    ((∃ y ys, ps.flatten = y :: ys ∧ y.className ≠ "pandas.core.frame.DataFrame") →
      partitionBy env x cols np h = (.error ⟨.exception,
        "Currently only support partition by for XShards of Pandas DataFrame"⟩, h)) ∧
    ∀ s : Schema, (∀ y ∈ ps.flatten, ∃ df : DataFrame, y = .frame df ∧ df.schema = s) →
      ps.flatten ≠ [] →
      ((∀ c, cols ≠ .str c) → partitionBy env x cols np h =
        (.error ⟨.exception, "Only support partition by a column name"⟩, h)) ∧
      (∀ c, cols = .str c → Label.str c ∉ s.columns → partitionBy env x cols np h =
        (.error ⟨.exception, "The partition column is not in the DataFrame"⟩, h)) := by
  obtain ⟨o, ho, hr⟩ := hx
  have hcall : ∀ e, partitionByRdd env (Rdd.ofParts ps) cols np = .error e →
      partitionBy env x cols np h = (.error e, h) := fun e he => by
    rw [partitionBy, derive_apply ho, Rdd.computed_eq_ok_iff.mp hr, he]
    rfl
  refine ⟨fun ⟨y, ys, hy, hcls⟩ => hcall _ ?_, fun s hframes hne => ⟨fun hcols => hcall _ ?_,
    fun c hc hmiss => hcall _ ?_⟩⟩
  · have hname : getClassName (Rdd.ofParts ps) = .ok y.className := by
      rw [getClassName_ofParts, hy]
    simp [partitionByRdd, hname, hcls, bind, Except.bind]
  · simp only [partitionByRdd, getClassName_frames hframes hne, getSchema_ofParts hframes hne,
      bind, Except.bind, if_pos]
  · subst hc
    simp [partitionByRdd, getClassName_frames hframes hne, getSchema_ofParts hframes hne, hmiss,
      bind, Except.bind]

end SparkXShards

end OrcaXShards
