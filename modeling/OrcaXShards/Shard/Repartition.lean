import OrcaXShards.Shard.Methods

/-!
# `repartition` and `partition_by`

`repartition(n)` dispatches on the class name of the first element.  Frames, lists and
arrays of rank at least one are taken apart and rebuilt: on the increase path (more
partitions than now) through a shuffle, on the decrease path through `coalesce`.
Anything else goes through Spark's `repartition` as it is.  `partition_by(cols, n)` sends
the rows of a collection of frames to `portable_hash(row[cols]) % n` and merges each
partition's rows into one frame.

The RDD each method builds is a function of the source RDD (`repartitionRdd`,
`partitionByRdd`); the methods construct the collection and demote their source.
-/

namespace OrcaXShards

/-- `(x.columns, x.dtypes)` on an element: the schema of a frame. -/
def PyObj.schemaOf : PyObj → Except PyError Schema
  | .frame df => .ok df.schema
  | _ => .error ⟨.attributeError, "object has no attribute 'columns'"⟩

/-- `_get_schema()` on a collection of frames: the schema of the first frame. -/
def getSchema (r : Rdd PyObj) : Except PyError Schema :=
  (r.map PyObj.schemaOf).first

/-- `df.apply(lambda row: (key(row), row.values.tolist()), axis=1).values.tolist()` on an
element, the key read from the row's labels and values. -/
def keyedRowsOf (key : List Label → List Scalar → Except PyError Scalar) :
    PyObj → Except PyError (List (Scalar × List Scalar))
  | .frame df => df.keyedRows (key df.schema.columns)
  | _ => .error ⟨.attributeError, "object has no attribute 'apply'"⟩

/-- `merge_rows(iter)` of `repartition` and `merge(iterator)` of `partition_by`: a
partition's rows as one frame of the schema, nothing for a partition without rows. -/
def mergeRows (s : Schema) : List (Scalar × List Scalar) → Except PyError (List PyObj)
  | [] => .ok []
  | recs => (DataFrame.fromRows s (recs.map Prod.snd)).map fun df => [.frame df]

/-- `combine_df(iter)`: a partition's frames concatenated into one, nothing for an empty
partition. -/
def combineDf : List PyObj → Except PyError (List PyObj)
  | [] => .ok []
  | xs => (xs.mapM PyObj.asFrame >>= DataFrame.concat).map fun df => [.frame df]

/-- `np.stack([list(iter)], axis=0).astype(dtype)` as `mapPartitions` iterates it: the
partition's rows stacked into one array of dtype `d`. -/
def stackRows (d : DType) (xs : List PyObj) : Except PyError (List PyObj) := do
  let a ← NdArray.ofItems xs
  let b ← (NdArray.stackOne a).astype d
  b.toList

/-- `[np.concatenate(list(iter), axis=0)]`. -/
def concatRows (xs : List PyObj) : Except PyError (List PyObj) :=
  (xs.mapM PyObj.toNdArray >>= NdArray.concatenate).map fun c => [.ndarray c]

/-- The frame branch of `repartition`: rows keyed by `row[0]` through `partitionBy` and
`merge_rows` on the increase path, `coalesce` and `combine_df` on the decrease path. -/
def repartitionFrames (env : Env) (rdd : Rdd PyObj) (n : Nat) : Except PyError (Rdd PyObj) :=
  if rdd.numPartitions < n then do
    let keyed := (rdd.flatMap (keyedRowsOf rowAtZero)).partitionBy env.sch env.hash.portable n
    let schema ← getSchema rdd
    pure (keyed.mapPartitions (mergeRows schema))
  else do
    let co ← rdd.coalesce env.sch n
    pure (co.mapPartitions combineDf)

/-- The list branch of `repartition`: the items shuffled and gathered into one list per
partition, or the lists of each coalesced group added up with `reduce`. -/
def repartitionLists (env : Env) (rdd : Rdd PyObj) (n : Nat) : Except PyError (Rdd PyObj) :=
  if rdd.numPartitions < n then do
    let r ← (rdd.flatMap PyObj.iter).repartition env.sch n
    pure (r.mapPartitions fun xs => .ok [.list xs])
  else do
    let co ← rdd.coalesce env.sch n
    pure (co.mapPartitions fun xs => (pyReduce PyObj.add xs).map ([·]))

/-- The array branch of `repartition`: the leading-axis rows shuffled and stacked in the
first array's dtype, or each coalesced group concatenated.  A 0-d first array goes through
Spark's `repartition`. -/
def repartitionArrays (env : Env) (rdd : Rdd PyObj) (n : Nat) : Except PyError (Rdd PyObj) := do
  match ← rdd.first with
  | .ndarray elem =>
    if elem.shape.length > 0 then
      if rdd.numPartitions < n then do
        let r ← (rdd.flatMap PyObj.iter).repartition env.sch n
        pure (r.mapPartitions (stackRows elem.dtype))
      else do
        let co ← rdd.coalesce env.sch n
        pure (co.mapPartitions concatRows)
    else rdd.repartition env.sch n
  | _ => .error ⟨.attributeError, "object has no attribute 'shape'"⟩

/-- The RDD `repartition(n)` builds, by the class name of the first element. -/
def repartitionRdd (env : Env) (rdd : Rdd PyObj) (n : Nat) : Except PyError (Rdd PyObj) := do
  let cls ← getClassName rdd
  if cls = "pandas.core.frame.DataFrame" then repartitionFrames env rdd n
  else if cls = "list" then repartitionLists env rdd n
  else if cls = "numpy.ndarray" then repartitionArrays env rdd n
  else rdd.repartition env.sch n

/-- The partition count `partition_by` uses: `num_partitions`, or the current count when it
is `None` or `0`. -/
def partitionCount (rdd : Rdd PyObj) : Option Nat → Nat
  | some (n + 1) => n + 1
  | _ => rdd.numPartitions

/-- The RDD `partition_by(cols, num_partitions)` builds. -/
def partitionByRdd (env : Env) (rdd : Rdd PyObj) (cols : PyObj) (numPartitions : Option Nat) :
    Except PyError (Rdd PyObj) := do
  let cls ← getClassName rdd
  if cls = "pandas.core.frame.DataFrame" then
    let schema ← getSchema rdd
    match cols with
    | .str c =>
      if Label.str c ∉ schema.columns then
        .error ⟨.exception, "The partition column is not in the DataFrame"⟩
      else
        let keyed := rdd.flatMap (keyedRowsOf fun columns values => rowAt columns values (.str c))
        pure ((keyed.partitionBy env.sch env.hash.portable
          (partitionCount rdd numPartitions)).mapPartitions (mergeRows schema))
    | _ => .error ⟨.exception, "Only support partition by a column name"⟩
  else
    .error ⟨.exception, "Currently only support partition by for XShards of Pandas DataFrame"⟩

namespace SparkXShards

/-- `repartition(num_partitions)`. -/
def repartition (env : Env) (x n : Nat) : Call Nat :=
  derive env x fun rdd => repartitionRdd env rdd n

/-- `partition_by(cols, num_partitions)`. -/
def partitionBy (env : Env) (x : Nat) (cols : PyObj) (numPartitions : Option Nat) :
    Call Nat :=
  derive env x fun rdd => partitionByRdd env rdd cols numPartitions

end SparkXShards

end OrcaXShards
