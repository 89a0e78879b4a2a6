import Etp.Catalog.BodyType
import Etp.Schema.Channels
import Etp.Schema.Handshake

/-!
# Bodies about channels

Reading channel data as rows of a frame, streaming it, and loading it.
-/

namespace Etp.Catalog

open Schema

namespace ChannelDataFrame

/-- Asks about the channels of a frame. -/
def getFrameMetadata : BodyType where
  protocol := .channelDataFrame
  number := 1
  name := "GetFrameMetadata"
  shape := .record [("uri", .text), ("include_all_channel_secondary_indexes", .bool)]

/-- Describes the channels of a frame. -/
def getFrameMetadataResponse : BodyType where
  protocol := .channelDataFrame
  number := 2
  name := "GetFrameMetadataResponse"
  shape := .record [("uri", .text), ("indexes", .list indexMetadataRecord),
    ("channels", .list frameChannelMetadataRecord)]
  cut := some "indexes"

/-- Asks for rows of a frame. -/
def getFrame : BodyType where
  protocol := .channelDataFrame
  number := 3
  name := "GetFrame"
  shape := .record [("uri", .text), ("include_all_channel_secondary_indexes", .bool),
    ("requested_interval", indexInterval), ("request_uuid", .uuid),
    ("requested_secondary_intervals", .list indexInterval)]
  cut := some "requested_secondary_intervals"

/-- Names the columns of the rows that follow. -/
def getFrameResponseHeader : BodyType where
  protocol := .channelDataFrame
  number := 4
  name := "GetFrameResponseHeader"
  shape := .record [("channel_uris", .list .text), ("indexes", .list indexMetadataRecord)]
  cut := some "channel_uris"

/-- Stops the sending of rows. -/
def cancelGetFrame : BodyType where
  protocol := .channelDataFrame
  number := 5
  name := "CancelGetFrame"
  shape := .record [("request_uuid", .uuid)]

/-- Rows of a frame. -/
def getFrameResponseRows : BodyType where
  protocol := .channelDataFrame
  number := 6
  name := "GetFrameResponseRows"
  shape := .record [("frame", .list frameRow)]
  cut := some "frame"

end ChannelDataFrame

namespace ChannelSubscribe

/-- Asks about channels. -/
def getChannelMetadata : BodyType where
  protocol := .channelSubscribe
  number := 1
  name := "GetChannelMetadata"
  shape := .record [("uris", .map .text)]
  cut := some "uris"

/-- Describes channels. -/
def getChannelMetadataResponse : BodyType where
  protocol := .channelSubscribe
  number := 2
  name := "GetChannelMetadataResponse"
  shape := .record [("metadata", .map channelMetadataRecord), ("errors", .map errorInfo)]
  cut := some "metadata"

/-- Subscribes to the data of channels. -/
def subscribeChannels : BodyType where
  protocol := .channelSubscribe
  number := 3
  name := "SubscribeChannels"
  shape := .record [("channels", .map channelSubscribeInfo)]
  cut := some "channels"

/-- New data of channels. -/
def channelData : BodyType where
  protocol := .channelSubscribe
  number := 4
  name := "ChannelData"
  shape := .record [("data", .list dataItem)]
  cut := some "data"

/-- The data in an interval was replaced. -/
def rangeReplaced : BodyType where
  protocol := .channelSubscribe
  number := 6
  name := "RangeReplaced"
  shape := .record [("change_time", .long), ("channel_ids", .list .long),
    ("changed_interval", indexInterval), ("data", .list dataItem)]
  cut := some "channel_ids"

/-- Ends subscriptions to channels. -/
def unsubscribeChannels : BodyType where
  protocol := .channelSubscribe
  number := 7
  name := "UnsubscribeChannels"
  shape := .record [("channel_ids", .map .long)]
  cut := some "channel_ids"

/-- Subscriptions to channels were ended. -/
def subscriptionsStopped : BodyType where
  protocol := .channelSubscribe
  number := 8
  name := "SubscriptionsStopped"
  shape := .record [("reason", .text), ("channel_ids", .map .long)]
  cut := some "channel_ids"

/-- Asks for the data in intervals. -/
def getRanges : BodyType where
  protocol := .channelSubscribe
  number := 9
  name := "GetRanges"
  shape := .record [("request_uuid", .uuid), ("channel_ranges", .list channelRangeInfo)]
  cut := some "channel_ranges"

/-- Hands out the data in intervals. -/
def getRangesResponse : BodyType where
  protocol := .channelSubscribe
  number := 10
  name := "GetRangesResponse"
  shape := .record [("data", .list dataItem)]
  cut := some "data"

/-- Stops the sending of data. -/
def cancelGetRanges : BodyType where
  protocol := .channelSubscribe
  number := 11
  name := "CancelGetRanges"
  shape := .record [("request_uuid", .uuid)]

/-- Says which subscriptions to channels were made. -/
def subscribeChannelsResponse : BodyType where
  protocol := .channelSubscribe
  number := 12
  name := "SubscribeChannelsResponse"
  shape := .record [("success", .map .text)]
  cut := some "success"

/-- Channels were cut off. -/
def channelsTruncated : BodyType where
  protocol := .channelSubscribe
  number := 13
  name := "ChannelsTruncated"
  shape := .record [("change_time", .long), ("channels", .list truncateInfo)]
  cut := some "channels"

/-- Asks which intervals of channels changed. -/
def getChangeAnnotations : BodyType where
  protocol := .channelSubscribe
  number := 14
  name := "GetChangeAnnotations"
  shape := .record [("channels", .map channelChangeRequestInfo), ("latest_only", .bool)]
  cut := some "channels"

/-- Says which intervals of channels changed. -/
def getChangeAnnotationsResponse : BodyType where
  protocol := .channelSubscribe
  number := 15
  name := "GetChangeAnnotationsResponse"
  shape := .record [("changes", .map changeResponseInfo)]
  cut := some "changes"

end ChannelSubscribe

namespace ChannelDataLoad

/-- Opens channels for loading. -/
def openChannels : BodyType where
  protocol := .channelDataLoad
  number := 1
  name := "OpenChannels"
  shape := .record [("uris", .map .text)]
  cut := some "uris"

/-- Says which channels were opened. -/
def openChannelsResponse : BodyType where
  protocol := .channelDataLoad
  number := 2
  name := "OpenChannelsResponse"
  shape := .record [("channels", .map openChannelInfo)]
  cut := some "channels"

/-- Closes channels. -/
def closeChannels : BodyType where
  protocol := .channelDataLoad
  number := 3
  name := "CloseChannels"
  shape := .record [("id", .map .long)]
  cut := some "id"

/-- New data of channels to be stored. -/
def channelData : BodyType where
  protocol := .channelDataLoad
  number := 4
  name := "ChannelData"
  shape := .record [("data", .list dataItem)]
  cut := some "data"

/-- Replaces the data in an interval. -/
def replaceRange : BodyType where
  protocol := .channelDataLoad
  number := 6
  name := "ReplaceRange"
  shape := .record [("change_time", .long), ("channel_ids", .list .long),
    ("changed_interval", indexInterval), ("data", .list dataItem)]
  cut := some "channel_ids"

/-- Says which channels were closed. -/
def channelsClosed : BodyType where
  protocol := .channelDataLoad
  number := 7
  name := "ChannelsClosed"
  shape := .record [("reason", .text), ("id", .map .long)]
  cut := some "id"

/-- Says when the data was replaced. -/
def replaceRangeResponse : BodyType where
  protocol := .channelDataLoad
  number := 8
  name := "ReplaceRangeResponse"
  shape := .record [("channel_change_time", .long)]

/-- Cuts channels off. -/
def truncateChannels : BodyType where
  protocol := .channelDataLoad
  number := 9
  name := "TruncateChannels"
  shape := .record [("channels", .map truncateInfo)]
  cut := some "channels"

/-- Says when the channels were cut off. -/
def truncateChannelsResponse : BodyType where
  protocol := .channelDataLoad
  number := 10
  name := "TruncateChannelsResponse"
  shape := .record [("channels_truncated_time", .map .long)]
  cut := some "channels_truncated_time"

end ChannelDataLoad

end Etp.Catalog
