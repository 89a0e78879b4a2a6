import Etp.Schema.Shape

/-!
# Records about data objects

Data objects, the resources that describe them, and the queries and subscriptions that name them.
-/

namespace Etp.Schema

/-- Whether an object is being changed. -/
def activeStatusKind : Shape :=
  .choice "Active" ["Inactive"]

/-- Which relationships of an object count. -/
def relationshipKind : Shape :=
  .choice "Primary" ["Secondary", "Both"]

/-- How far around an object a query reaches. -/
def contextScopeKind : Shape :=
  .choice "SelfOnly" ["Sources", "Targets", "SourcesOrSelf", "TargetsOrSelf"]

/-- What a store tells about one of its data objects. -/
def resource : Shape := .record
  [("uri", .text), ("alternate_uris", .list .text), ("name", .text),
    ("source_count", .option .int), ("target_count", .option .int), ("last_changed", .long),
    ("store_last_write", .long), ("store_created", .long), ("active_status", activeStatusKind),
    ("custom_data", .map .value)]

/-- A data object with its content, or with the identifier under which chunks carry the content. -/
def dataObject : Shape := .record
  [("resource", resource), ("format", .text), ("blob_id", .option .uuid), ("data", .bytes)]

/-- The part of the graph of objects that a query covers. -/
def contextInfo : Shape := .record
  [("uri", .text), ("depth", .int), ("data_object_types", .list .text),
    ("navigable_edges", relationshipKind), ("include_secondary_targets", .bool),
    ("include_secondary_sources", .bool)]

/-- A dataspace of a store. -/
def dataspace : Shape := .record
  [("uri", .text), ("path", .text), ("store_last_write", .long), ("store_created", .long),
    ("custom_data", .map .value)]

/-- A relationship between two resources. -/
def edge : Shape := .record
  [("source_uri", .text), ("target_uri", .text), ("relationship_kind", relationshipKind),
    ("custom_data", .map .value)]

/-- A data object that was deleted, and when. -/
def deletedResource : Shape := .record
  [("uri", .text), ("deleted_time", .long), ("custom_data", .map .value)]

/-- A type of data object and the number of its objects. -/
def supportedType : Shape := .record
  [("data_object_type", .text), ("object_count", .option .int),
    ("relationship_kind", relationshipKind)]

/-- What storing an object did to the objects it contains. -/
def putResponse : Shape := .record
  [("created_contained_object_uris", .list .text), ("deleted_contained_object_uris", .list .text),
    ("joined_contained_object_uris", .list .text),
    ("unjoined_contained_object_uris", .list .text)]

/-- A list of texts. -/
def arrayOfString : Shape := .record
  [("values", .list .text)]

/-- What happened to a data object. -/
def objectChangeKind : Shape :=
  .choice "Insert" ["Update", "Authorized", "Joined", "Unjoined", "JoinedSubscription",
    "UnjoinedSubscription"]

/-- A change of a data object. -/
def objectChange : Shape := .record
  [("change_kind", objectChangeKind), ("change_time", .long), ("data_object", dataObject)]

/-- The scope and the options of a subscription to data objects. -/
def subscriptionInfo : Shape := .record
  [("context", contextInfo), ("scope", contextScopeKind), ("request_uuid", .uuid),
    ("include_object_data", .bool), ("format", .text)]

end Etp.Schema
