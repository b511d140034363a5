import OrcaXShards.Ray.Plasma
import OrcaXShards.Ray.Handoff
import OrcaXShards.Ray.Progress
import OrcaXShards.Python.Value
import OrcaXShards.Numpy.Array
import OrcaXShards.Pandas.Convert
import OrcaXShards.Pandas.Frame
import OrcaXShards.Python.Object
import OrcaXShards.Spark.Rdd
import OrcaXShards.Shard.Session
import OrcaXShards.Shard.Methods
import OrcaXShards.Shard.Repartition
import OrcaXShards.Shard.Partition
import OrcaXShards.Shard.Align
import OrcaXShards.Shard.RepartitionLaws
import OrcaXShards.Shard.Grouping
import OrcaXShards.Shard.Sharding
import OrcaXShards.Shard.Unique
import OrcaXShards.Shard.Lifecycle
import OrcaXShards.Shard.Rebalance
import OrcaXShards.Shard.RebalanceArrays
import OrcaXShards.Shard.Jobs
import OrcaXShards.Shard.Runs
import OrcaXShards.Shard.ToRay
