import Etp.Catalog.BodyType
import Etp.Schema.Resources

/-!
# Bodies that explore a store

The resources of a store and their relationships, its dataspaces and its types of data objects.
-/

namespace Etp.Catalog

open Schema

namespace Discovery

/-- Asks for the resources in a part of the graph of objects. -/
def getResources : BodyType where
  protocol := .discovery
  number := 1
  name := "GetResources"
  shape := .record [("context", contextInfo), ("scope", contextScopeKind),
    ("count_objects", .bool), ("store_last_write_filter", .option .long),
    ("active_status_filter", .option activeStatusKind), ("include_edges", .bool)]

/-- Lists resources. -/
def getResourcesResponse : BodyType where
  protocol := .discovery
  number := 4
  name := "GetResourcesResponse"
  shape := .record [("resources", .list resource)]
  cut := some "resources"

/-- Asks for deleted data objects. -/
def getDeletedResources : BodyType where
  protocol := .discovery
  number := 5
  name := "GetDeletedResources"
  shape := .record [("dataspace_uri", .text), ("delete_time_filter", .option .long),
    ("data_object_types", .list .text)]
  cut := some "data_object_types"

/-- Lists deleted data objects. -/
def getDeletedResourcesResponse : BodyType where
  protocol := .discovery
  number := 6
  name := "GetDeletedResourcesResponse"
  shape := .record [("deleted_resources", .list deletedResource)]
  cut := some "deleted_resources"

/-- Lists the relationships between resources. -/
def getResourcesEdgesResponse : BodyType where
  protocol := .discovery
  number := 7
  name := "GetResourcesEdgesResponse"
  shape := .record [("edges", .list edge)]
  cut := some "edges"

end Discovery

namespace Dataspace

/-- Asks for the dataspaces of a store. -/
def getDataspaces : BodyType where
  protocol := .dataspace
  number := 1
  name := "GetDataspaces"
  shape := .record [("store_last_write_filter", .option .long)]

/-- Lists dataspaces. -/
def getDataspacesResponse : BodyType where
  protocol := .dataspace
  number := 2
  name := "GetDataspacesResponse"
  shape := .record [("dataspaces", .list dataspace)]
  cut := some "dataspaces"

/-- Stores dataspaces. -/
def putDataspaces : BodyType where
  protocol := .dataspace
  number := 3
  name := "PutDataspaces"
  shape := .record [("dataspaces", .map dataspace)]
  cut := some "dataspaces"

/-- Deletes dataspaces. -/
def deleteDataspaces : BodyType where
  protocol := .dataspace
  number := 4
  name := "DeleteDataspaces"
  shape := .record [("uris", .map .text)]
  cut := some "uris"

/-- Says which dataspaces were deleted. -/
def deleteDataspacesResponse : BodyType where
  protocol := .dataspace
  number := 5
  name := "DeleteDataspacesResponse"
  shape := .record [("success", .map .text)]
  cut := some "success"

/-- Says which dataspaces were stored. -/
def putDataspacesResponse : BodyType where
  protocol := .dataspace
  number := 6
  name := "PutDataspacesResponse"
  shape := .record [("success", .map .text)]
  cut := some "success"

end Dataspace

namespace SupportedTypes

/-- Asks for the types of data objects in a part of a store. -/
def getSupportedTypes : BodyType where
  protocol := .supportedTypes
  number := 1
  name := "GetSupportedTypes"
  shape := .record [("uri", .text), ("scope", contextScopeKind), ("return_empty_types", .bool),
    ("count_objects", .bool)]

/-- Lists types of data objects. -/
def getSupportedTypesResponse : BodyType where
  protocol := .supportedTypes
  number := 2
  name := "GetSupportedTypesResponse"
  shape := .record [("supported_types", .list supportedType)]
  cut := some "supported_types"

end SupportedTypes

end Etp.Catalog
