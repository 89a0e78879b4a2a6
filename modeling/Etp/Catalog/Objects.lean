import Etp.Catalog.BodyType
import Etp.Schema.Resources

/-!
# Bodies about data objects

Storing, fetching, finding and watching data objects, and grouping their updates.
-/

namespace Etp.Catalog

open Schema

namespace Store

/-- Asks for data objects. -/
def getDataObjects : BodyType where
  protocol := .store
  number := 1
  name := "GetDataObjects"
  shape := .record [("uris", .map .text), ("format", .text)]
  cut := some "uris"

/-- Stores data objects. -/
def putDataObjects : BodyType where
  protocol := .store
  number := 2
  name := "PutDataObjects"
  shape := .record [("data_objects", .map dataObject), ("prune_contained_objects", .bool)]
  cut := some "data_objects"

/-- Deletes data objects. -/
def deleteDataObjects : BodyType where
  protocol := .store
  number := 3
  name := "DeleteDataObjects"
  shape := .record [("uris", .map .text), ("prune_contained_objects", .bool)]
  cut := some "uris"

/-- Hands out data objects. -/
def getDataObjectsResponse : BodyType where
  protocol := .store
  number := 4
  name := "GetDataObjectsResponse"
  shape := .record [("data_objects", .map dataObject)]
  cut := some "data_objects"

/-- A piece of the content of a data object. -/
def chunk : BodyType where
  protocol := .store
  number := 8
  name := "Chunk"
  shape := .record [("blob_id", .uuid), ("data", .bytes), ("final_chunk", .bool)]

/-- Says what storing did. -/
def putDataObjectsResponse : BodyType where
  protocol := .store
  number := 9
  name := "PutDataObjectsResponse"
  shape := .record [("success", .map putResponse)]
  cut := some "success"

/-- Says what was deleted. -/
def deleteDataObjectsResponse : BodyType where
  protocol := .store
  number := 10
  name := "DeleteDataObjectsResponse"
  shape := .record [("deleted_uris", .map arrayOfString)]
  cut := some "deleted_uris"

end Store

namespace StoreQuery

/-- Asks for the data objects in a part of the graph of objects. -/
def findDataObjects : BodyType where
  protocol := .storeQuery
  number := 1
  name := "FindDataObjects"
  shape := .record [("context", contextInfo), ("scope", contextScopeKind),
    ("store_last_write_filter", .option .long),
    ("active_status_filter", .option activeStatusKind), ("format", .text)]

/-- Lists the data objects found. -/
def findDataObjectsResponse : BodyType where
  protocol := .storeQuery
  number := 2
  name := "FindDataObjectsResponse"
  shape := .record [("data_objects", .list dataObject), ("server_sort_order", .text)]
  cut := some "data_objects"

/-- A piece of the content of a data object. -/
def chunk : BodyType where
  protocol := .storeQuery
  number := 3
  name := "Chunk"
  shape := .record [("blob_id", .uuid), ("data", .bytes), ("final_chunk", .bool)]

end StoreQuery

namespace StoreNotification

/-- A data object changed. -/
def objectChanged : BodyType where
  protocol := .storeNotification
  number := 2
  name := "ObjectChanged"
  shape := .record [("change", objectChange), ("request_uuid", .uuid)]

/-- A data object was deleted. -/
def objectDeleted : BodyType where
  protocol := .storeNotification
  number := 3
  name := "ObjectDeleted"
  shape := .record [("uri", .text), ("change_time", .long), ("request_uuid", .uuid)]

/-- Ends a subscription to data objects. -/
def unsubscribeNotifications : BodyType where
  protocol := .storeNotification
  number := 4
  name := "UnsubscribeNotifications"
  shape := .record [("request_uuid", .uuid)]

/-- Access to a data object ended. -/
def objectAccessRevoked : BodyType where
  protocol := .storeNotification
  number := 5
  name := "ObjectAccessRevoked"
  shape := .record [("uri", .text), ("change_time", .long), ("request_uuid", .uuid)]

/-- Subscribes to changes of data objects. -/
def subscribeNotifications : BodyType where
  protocol := .storeNotification
  number := 6
  name := "SubscribeNotifications"
  shape := .record [("request", .map subscriptionInfo)]
  cut := some "request"

/-- A subscription to data objects ended. -/
def subscriptionEnded : BodyType where
  protocol := .storeNotification
  number := 7
  name := "SubscriptionEnded"
  shape := .record [("reason", .text), ("request_uuid", .uuid)]

/-- Subscriptions that a store made on its own. -/
def unsolicitedStoreNotifications : BodyType where
  protocol := .storeNotification
  number := 8
  name := "UnsolicitedStoreNotifications"
  shape := .record [("subscriptions", .list subscriptionInfo)]
  cut := some "subscriptions"

/-- Says which subscriptions were made. -/
def subscribeNotificationsResponse : BodyType where
  protocol := .storeNotification
  number := 10
  name := "SubscribeNotificationsResponse"
  shape := .record [("success", .map .text)]
  cut := some "success"

/-- The status of a data object changed. -/
def objectActiveStatusChanged : BodyType where
  protocol := .storeNotification
  number := 11
  name := "ObjectActiveStatusChanged"
  shape := .record [("active_status", activeStatusKind), ("change_time", .long),
    ("resource", resource), ("request_uuid", .uuid)]

end StoreNotification

namespace Transaction

/-- Starts a transaction. -/
def startTransaction : BodyType where
  protocol := .transaction
  number := 1
  name := "StartTransaction"
  shape := .record [("read_only", .bool), ("message", .text), ("dataspace_uris", .list .text)]
  cut := some "dataspace_uris"

/-- Says whether the transaction started. -/
def startTransactionResponse : BodyType where
  protocol := .transaction
  number := 2
  name := "StartTransactionResponse"
  shape := .record [("transaction_uuid", .uuid), ("successful", .bool), ("failure_reason", .text)]

/-- Commits a transaction. -/
def commitTransaction : BodyType where
  protocol := .transaction
  number := 3
  name := "CommitTransaction"
  shape := .record [("transaction_uuid", .uuid)]

/-- Undoes a transaction. -/
def rollbackTransaction : BodyType where
  protocol := .transaction
  number := 4
  name := "RollbackTransaction"
  shape := .record [("transaction_uuid", .uuid)]

/-- Says whether the transaction was committed. -/
def commitTransactionResponse : BodyType where
  protocol := .transaction
  number := 5
  name := "CommitTransactionResponse"
  shape := .record [("transaction_uuid", .uuid), ("successful", .bool), ("failure_reason", .text)]

/-- Says whether the transaction was undone. -/
def rollbackTransactionResponse : BodyType where
  protocol := .transaction
  number := 6
  name := "RollbackTransactionResponse"
  shape := .record [("transaction_uuid", .uuid), ("successful", .bool), ("failure_reason", .text)]

end Transaction

end Etp.Catalog
