import Etp.Schema.Indexes
import Etp.Schema.Resources

/-!
# Records about channels

Channels carry values along one or more indexes.
-/

namespace Etp.Schema

/-- What is known about a channel. -/
def channelMetadataRecord : Shape := .record
  [("uri", .text), ("id", .long), ("indexes", .list indexMetadataRecord), ("channel_name", .text),
    ("uom", .text), ("depth_datum", .text), ("channel_class_uri", .text),
    ("status", activeStatusKind), ("source", .text), ("measure_class", .text),
    ("custom_data", .map .value)]

/-- The value of a channel at one position. -/
def dataItem : Shape := .record
  [("channel_id", .long), ("indexes", .list .index), ("value", .option .value)]

/-- Where and how the data of a channel is to be sent. -/
def channelSubscribeInfo : Shape := .record
  [("channel_id", .long), ("start_index", .index), ("data_changes", .bool),
    ("request_latest_index_count", .option .int)]

/-- Channels and the interval wanted of them. -/
def channelRangeInfo : Shape := .record
  [("channel_ids", .list .long), ("interval", indexInterval),
    ("secondary_intervals", .list indexInterval)]

/-- Channels whose changes since a time are wanted. -/
def channelChangeRequestInfo : Shape := .record
  [("since_change_time", .long), ("channel_ids", .list .long)]

/-- A channel and its new last position. -/
def truncateInfo : Shape := .record
  [("channel_id", .long), ("new_end_index", .index)]

/-- A channel that was opened for loading. -/
def openChannelInfo : Shape := .record
  [("metadata", channelMetadataRecord), ("prefer_realtime", .bool), ("data_changes", .bool)]

/-- What is known about a channel of a frame. -/
def frameChannelMetadataRecord : Shape := .record
  [("uri", .text), ("channel_name", .text), ("uom", .text), ("depth_datum", .text),
    ("channel_class_uri", .text), ("status", activeStatusKind), ("custom_data", .map .value)]

/-- One row of a frame: the positions and one point for each channel. -/
def frameRow : Shape := .record
  [("indexes", .list .index), ("points", .list (.option .value))]

end Etp.Schema
