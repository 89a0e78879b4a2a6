import Etp.Catalog.BodyType
import Etp.Schema.Indexes
import Etp.Schema.Resources

/-!
# Bodies about growing data objects

Reading, editing and watching the parts of growing data objects.
-/

namespace Etp.Catalog

open Schema

namespace GrowingObject

/-- Deletes parts. -/
def deleteParts : BodyType where
  protocol := .growingObject
  number := 1
  name := "DeleteParts"
  shape := .record [("uri", .text), ("uids", .map .text)]
  cut := some "uids"

/-- Asks for parts. -/
def getParts : BodyType where
  protocol := .growingObject
  number := 3
  name := "GetParts"
  shape := .record [("uri", .text), ("format", .text), ("uids", .map .text)]
  cut := some "uids"

/-- Asks for the parts in an interval. -/
def getPartsByRange : BodyType where
  protocol := .growingObject
  number := 4
  name := "GetPartsByRange"
  shape := .record [("uri", .text), ("format", .text), ("index_interval", indexInterval),
    ("include_overlapping_intervals", .bool)]

/-- Stores parts. -/
def putParts : BodyType where
  protocol := .growingObject
  number := 5
  name := "PutParts"
  shape := .record [("uri", .text), ("format", .text), ("parts", .map objectPart)]
  cut := some "parts"

/-- Hands out parts. -/
def getPartsResponse : BodyType where
  protocol := .growingObject
  number := 6
  name := "GetPartsResponse"
  shape := .record [("uri", .text), ("format", .text), ("parts", .map objectPart)]
  cut := some "parts"

/-- Replaces the parts in an interval. -/
def replacePartsByRange : BodyType where
  protocol := .growingObject
  number := 7
  name := "ReplacePartsByRange"
  shape := .record [("uri", .text), ("delete_interval", indexInterval),
    ("include_overlapping_intervals", .bool), ("format", .text), ("parts", .list objectPart)]
  cut := some "parts"

/-- Asks about the parts of objects. -/
def getPartsMetadata : BodyType where
  protocol := .growingObject
  number := 8
  name := "GetPartsMetadata"
  shape := .record [("uris", .map .text)]
  cut := some "uris"

/-- Describes the parts of objects. -/
def getPartsMetadataResponse : BodyType where
  protocol := .growingObject
  number := 9
  name := "GetPartsMetadataResponse"
  shape := .record [("metadata", .map partsMetadataInfo)]
  cut := some "metadata"

/-- Hands out the parts in an interval. -/
def getPartsByRangeResponse : BodyType where
  protocol := .growingObject
  number := 10
  name := "GetPartsByRangeResponse"
  shape := .record [("uri", .text), ("format", .text), ("parts", .list objectPart)]
  cut := some "parts"

/-- Says which parts were deleted. -/
def deletePartsResponse : BodyType where
  protocol := .growingObject
  number := 11
  name := "DeletePartsResponse"
  shape := .record [("success", .map .text)]
  cut := some "success"

/-- Says that the parts were replaced. -/
def replacePartsByRangeResponse : BodyType where
  protocol := .growingObject
  number := 12
  name := "ReplacePartsByRangeResponse"
  shape := .record []

/-- Says which parts were stored. -/
def putPartsResponse : BodyType where
  protocol := .growingObject
  number := 13
  name := "PutPartsResponse"
  shape := .record [("success", .map .text)]
  cut := some "success"

/-- Asks for growing data objects without their parts. -/
def getGrowingDataObjectsHeader : BodyType where
  protocol := .growingObject
  number := 14
  name := "GetGrowingDataObjectsHeader"
  shape := .record [("uris", .map .text), ("format", .text)]
  cut := some "uris"

/-- Hands out growing data objects without their parts. -/
def getGrowingDataObjectsHeaderResponse : BodyType where
  protocol := .growingObject
  number := 15
  name := "GetGrowingDataObjectsHeaderResponse"
  shape := .record [("data_objects", .map dataObject)]
  cut := some "data_objects"

/-- Stores growing data objects without their parts. -/
def putGrowingDataObjectsHeader : BodyType where
  protocol := .growingObject
  number := 16
  name := "PutGrowingDataObjectsHeader"
  shape := .record [("data_objects", .map dataObject)]
  cut := some "data_objects"

/-- Says which growing data objects were stored. -/
def putGrowingDataObjectsHeaderResponse : BodyType where
  protocol := .growingObject
  number := 17
  name := "PutGrowingDataObjectsHeaderResponse"
  shape := .record [("success", .map .text)]
  cut := some "success"

/-- Asks which intervals of objects changed. -/
def getChangeAnnotations : BodyType where
  protocol := .growingObject
  number := 19
  name := "GetChangeAnnotations"
  shape := .record [("since_change_time", .long), ("uris", .map .text), ("latest_only", .bool)]
  cut := some "uris"

/-- Says which intervals of objects changed. -/
def getChangeAnnotationsResponse : BodyType where
  protocol := .growingObject
  number := 20
  name := "GetChangeAnnotationsResponse"
  shape := .record [("changes", .map changeResponseInfo)]
  cut := some "changes"

end GrowingObject

namespace GrowingObjectNotification

/-- Parts changed. -/
def partsChanged : BodyType where
  protocol := .growingObjectNotification
  number := 2
  name := "PartsChanged"
  shape := .record [("uri", .text), ("request_uuid", .uuid), ("change_kind", objectChangeKind),
    ("change_time", .long), ("format", .text), ("parts", .list objectPart)]
  cut := some "parts"

/-- Parts were deleted. -/
def partsDeleted : BodyType where
  protocol := .growingObjectNotification
  number := 3
  name := "PartsDeleted"
  shape := .record [("uri", .text), ("request_uuid", .uuid), ("change_time", .long),
    ("uids", .list .text)]
  cut := some "uids"

/-- Ends a subscription to parts. -/
def unsubscribePartNotification : BodyType where
  protocol := .growingObjectNotification
  number := 4
  name := "UnsubscribePartNotification"
  shape := .record [("request_uuid", .uuid)]

/-- The parts in an interval were replaced. -/
def partsReplacedByRange : BodyType where
  protocol := .growingObjectNotification
  number := 6
  name := "PartsReplacedByRange"
  shape := .record [("uri", .text), ("request_uuid", .uuid), ("change_time", .long),
    ("deleted_interval", indexInterval), ("include_overlapping_intervals", .bool),
    ("format", .text), ("parts", .list objectPart)]
  cut := some "parts"

/-- Subscribes to changes of parts. -/
def subscribePartNotifications : BodyType where
  protocol := .growingObjectNotification
  number := 7
  name := "SubscribePartNotifications"
  shape := .record [("request", .map partSubscriptionInfo)]
  cut := some "request"

/-- A subscription to parts ended. -/
def partSubscriptionEnded : BodyType where
  protocol := .growingObjectNotification
  number := 8
  name := "PartSubscriptionEnded"
  shape := .record [("reason", .text), ("request_uuid", .uuid)]

/-- Subscriptions to parts that a store made on its own. -/
def unsolicitedPartNotifications : BodyType where
  protocol := .growingObjectNotification
  number := 9
  name := "UnsolicitedPartNotifications"
  shape := .record [("subscriptions", .list partSubscriptionInfo)]
  cut := some "subscriptions"

/-- Says which subscriptions to parts were made. -/
def subscribePartNotificationsResponse : BodyType where
  protocol := .growingObjectNotification
  number := 10
  name := "SubscribePartNotificationsResponse"
  shape := .record [("success", .map .text)]
  cut := some "success"

end GrowingObjectNotification

end Etp.Catalog
