import Etp.Schema.Resources

/-!
# Data objects

A data object carries its content itself or names, by a blob identifier, the chunks that carry it.
-/

namespace Etp

/-- A data object of a store. -/
abbrev DataObject := Schema.dataObject.Val

namespace DataObject

/-- The address of the object. -/
def uri (o : DataObject) : String := o.1.1

/-- The identifier under which chunks carry the content. -/
def blob (o : DataObject) : Option Uuid := o.2.2.1

/-- The content that the object carries itself. -/
def data (o : DataObject) : Bytes := o.2.2.2.1

/-- The object with another blob identifier and another content. -/
def withContent (o : DataObject) (blob : Option Uuid) (data : Bytes) : DataObject :=
  (o.1, o.2.1, blob, data, ())

/-- Whether the content travels in chunks. -/
def isReference (o : DataObject) : Bool := o.blob.isSome && o.data.isEmpty

@[simp] theorem blob_withContent (o : DataObject) (blob : Option Uuid) (data : Bytes) :
    (o.withContent blob data).blob = blob := rfl

@[simp] theorem data_withContent (o : DataObject) (blob : Option Uuid) (data : Bytes) :
    (o.withContent blob data).data = data := rfl

@[simp] theorem uri_withContent (o : DataObject) (blob : Option Uuid) (data : Bytes) :
    (o.withContent blob data).uri = o.uri := rfl

@[simp] theorem withContent_self (o : DataObject) : o.withContent o.blob o.data = o := rfl

end DataObject

end Etp
