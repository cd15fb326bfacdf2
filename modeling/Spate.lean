import Spate.Transition
import Spate.FastMap
import Spate.Core
import Spate.CheckpointTracker
import Spate.Checkpointer
import Spate.CheckpointWorld
import Spate.Lists
import Spate.CheckpointSafety
import Spate.CheckpointCausality
import Spate.CheckpointOrder
import Spate.Handoff
import Spate.HandoffOrder
import Spate.SinkWorker
import Spate.SinkWorkerRun
import Spate.AckBook
import Spate.SinkPath
import Spate.SinkChunks
import Spate.SinkCustody
import Spate.SinkDelivery
import Spate.SinkBudget
import Spate.Breaker
import Spate.EndCheck
import Spate.NdjsonFramer
import Spate.RangeTrim
import Spate.S3Tiling
import Spate.S3Read
import Spate.S3Fetch
import Spate.S3Framer
import Spate.S3FramerCuts
import Spate.S3Lane
import Spate.S3LaneRecords
import Spate.S3LaneRun
import Spate.S3Unit
import Spate.S3Lister
import Spate.S3ListerSafety
import Spate.UnitReader
import Spate.UnitReaderActs
import Spate.UnitReaderAck
import Spate.UnitReaderDrain
import Spate.UnitReaderBooks
import Spate.UnitReaderRoom
import Spate.ByteCodec
import Spate.Serde
import Spate.TypeParse
import Spate.ClickHouseSchema
import Spate.ClickHouseRecords
import Spate.NativeColumn
import Spate.S3UnitId
import Spate.JsonText
import Spate.S3UnitBody
import Spate.S3Notification
import Spate.S3Packing
import Spate.Backpressure
import Spate.KafkaTracker
import Spate.KafkaCustody
import Spate.KafkaAttempt
import Spate.KafkaFeed
import Spate.KafkaWorld
import Spate.KafkaBooks
import Spate.ClickHouseTimes
import Spate.ClickHouseRouter
import Spate.RowBinary
import Spate.ClickHouseNewtypes
import Spate.Datagen
