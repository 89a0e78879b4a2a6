import Etp.Schema.Shape

/-!
# Records about indexes and parts

Growing data objects consist of parts along an index.
-/

namespace Etp.Schema

/-- An interval of an index. -/
def indexInterval : Shape := .record
  [("start_index", .index), ("end_index", .index), ("uom", .text), ("depth_datum", .text)]

/-- What an index measures. -/
def channelIndexKind : Shape :=
  .choice "DateTime" ["ElapsedTime", "MeasuredDepth", "TrueVerticalDepth", "PassIndexedDepth",
    "Pressure", "Temperature", "Scalar"]

/-- How the positions of an index follow each other. -/
def indexDirection : Shape :=
  .choice "Increasing" ["Decreasing", "Unordered"]

/-- What is known about an index. -/
def indexMetadataRecord : Shape := .record
  [("index_kind", channelIndexKind), ("interval", indexInterval), ("direction", indexDirection),
    ("name", .text), ("uom", .text), ("depth_datum", .text), ("filterable", .bool)]

/-- One part of a growing data object. -/
def objectPart : Shape := .record
  [("uid", .text), ("data", .bytes)]

/-- What is known about the parts of a growing data object. -/
def partsMetadataInfo : Shape := .record
  [("uri", .text), ("name", .text), ("index", indexMetadataRecord), ("custom_data", .map .value)]

/-- The object and the options of a subscription to its parts. -/
def partSubscriptionInfo : Shape := .record
  [("uri", .text), ("request_uuid", .uuid), ("include_object_data", .bool), ("format", .text)]

/-- An interval that changed, and when. -/
def changeAnnotation : Shape := .record
  [("change_time", .long), ("interval", indexInterval)]

/-- The intervals that changed up to a time. -/
def changeResponseInfo : Shape := .record
  [("response_timestamp", .long), ("changes", .list changeAnnotation)]

end Etp.Schema
