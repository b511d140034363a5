import OrcaXShards.Shard.Session

/-!
# `XShards.partition` and `XShards.load_pickle`

`XShards.partition(data)` cuts local data into `node_num * core_num` shards.  An array
is cut with `np.array_split`; a nesting of lists, tuples and dicts is flattened, every
leaf is checked against the first leaf's length and cut with `np.array_split`, section
`i` of every leaf goes to shard `i`, and each shard is packed back into the nesting of
`data`.  The shards are parallelized into a new collection.
-/

namespace OrcaXShards

/-- `np.array_split(x, c)` on a leaf of the data `XShards.partition` cuts.  Leaves other
than arrays are outside the model. -/
def PyObj.arraySplit (c : Nat) : PyObj → Except PyError (List PyObj)
  | .ndarray a => (a.arraySplit c).map (·.map .ndarray)
  | _ => .error ⟨.typeError, "leaves other than arrays are outside the model"⟩

/-- The message of the length assertion in `XShards.partition`. -/
def sizeMismatchMsg (first other : Nat) : String :=
  "the ndarrays in data must all have the same size in first dimension, " ++
    "got first ndarray of size " ++ toString first ++ " and another " ++ toString other

/-- The loop of `XShards.partition` over the flattened leaves: each leaf's length is
checked against the first leaf's, and its `c` sections are appended to the shards,
section `i` to shard `i`. -/
def appendSections (c L : Nat) :
    List (List PyObj) → List PyObj → Except PyError (List (List PyObj))
  | shards, [] => .ok shards
  | shards, x :: xs => do
    let n ← x.len
    if n = L then
      let parts ← x.arraySplit c
      appendSections c L (List.zipWith (fun s p => s ++ [p]) shards parts) xs
    else .error ⟨.assertionError, sizeMismatchMsg L n⟩

/-- The message of the type assertion in `XShards.partition`. -/
def typeErrMsg (data : PyObj) : String :=
  "\nThe types supported in zoo.orca.data.XShards.partition are\n1. np.ndarray\n" ++
    "2. a tuple, list, dict of np.ndarray\n" ++
    "3. nested structure made of tuple, list, dict with ndarray as the leaf value\n\n" ++
    "But got data of type " ++ data.className ++ "\n        "

/-- The branch of `XShards.partition` for a nesting of lists, tuples and dicts, cut into
`c` shards: the leaves flattened, checked and cut by `appendSections`, and each shard packed
back into the nesting of `data`. -/
def partitionNested (sch : Scheduler) (c : Nat) (data : PyObj) : Except PyError (Rdd PyObj) :=
  match data.flatten with
  | [] => .error ⟨.indexError, "list index out of range"⟩
  | first :: _ => do
    let L ← first.len
    let shards ← appendSections c L (List.replicate c []) data.flatten
    let packed ← shards.mapM data.packSequenceAs
    pure (Rdd.parallelize sch packed)

/-- The RDD `XShards.partition(data)` builds over `c = node_num * core_num` slices. -/
def partitionRdd (env : Env) (data : PyObj) : Except PyError (Rdd PyObj) :=
  let c := env.nodeNum * env.coreNum
  match data with
  | .ndarray a => (a.arraySplit c).map fun arrays =>
      Rdd.parallelize env.sch (arrays.map .ndarray)
  | .list _ | .tuple _ | .dict _ => partitionNested env.sch c data
  | _ => .error ⟨.assertionError, typeErrMsg data⟩

namespace XShards

/-- `XShards.partition(data)`. -/
def partition (env : Env) (data : PyObj) : Call Nat := do
  let rdd ← Call.lift (partitionRdd env data)
  SparkXShards.construct env rdd false

/-- `XShards.load_pickle(path, minPartitions)`. -/
def loadPickle (env : Env) (path : String) (minPartitions : Option Nat) : Call Nat :=
  SparkXShards.construct env (env.pickleFile path minPartitions) false

end XShards

end OrcaXShards
