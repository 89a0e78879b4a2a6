import Etp.Example.Credentials
import Etp.Handler.Registry

/-!
# Example handlers

Handlers that do just enough to run a session: the core handler opens sessions and checks
credentials, and in-memory stores keep dataspaces and data objects.
-/

namespace Etp.Example

/-- What the example handlers keep. -/
structure World where
  dataspaces : KeyMap Schema.dataspace.Val := KeyMap.empty
  objects : KeyMap DataObject := KeyMap.empty
  /-- Where the identifiers of endpoints and sessions come from. -/
  uuids : Uuid.Supply

/-- Answers with one reply. -/
def reply (body : Body) (peer : Peer) (world : World) : Handled World :=
  ⟨.ok (Response.reply body), peer, world⟩

/-- Opens a session; the reply repeats the formats and the time of the request and offers the
capabilities in force. -/
def onRequestSession (advertised : List Schema.supportedProtocol.Val) :
    Method World .requestSession :=
  fun (_, _, _, _, _, _, formats, time, _) _ peer world =>
    let (serverId, uuids) := world.uuids.draw
    let (sessionId, uuids) := uuids.draw
    reply ⟨.openSession, "etp_testing", "1.2", serverId, advertised, [], "", formats, time,
      (0 : Int64), sessionId, peer.capabilities, ()⟩ peer { world with uuids := uuids }

/-- Checks credentials; a peer that presents the accepted ones is authenticated. -/
def onAuthorize : Method World .authorize := fun (authorization, _) _ peer world =>
  let success := isAuthorized authorization
  let peer := if success then { peer with authenticated := true, login := username } else peer
  reply ⟨.authorizeResponse, success, [], ()⟩ peer world

/-- The core service. -/
def core (advertised : List Schema.supportedProtocol.Val) : Service World .core := fun r _ =>
  match r with
  | ⟨.requestSession, _⟩ => some (onRequestSession advertised)
  | ⟨.openSession, _⟩ => some (fun _ _ peer world => ⟨.ok .empty, peer, world⟩)
  | ⟨.authorize, _⟩ => some onAuthorize
  | ⟨.ping, _⟩ => some (fun (time, _) _ peer world => reply ⟨.pong, time, ()⟩ peer world)
  | _ => none

/-- Stores dataspaces under their addresses. -/
def onPutDataspaces : Method World .putDataspaces := fun (dataspaces, _) _ peer world =>
  let stored := dataspaces.values.foldl (fun stored d => stored.insert d.1 d) world.dataspaces
  reply ⟨.putDataspacesResponse, dataspaces.mapValues (fun d => d.1), ()⟩ peer
    { world with dataspaces := stored }

/-- Takes the dataspaces with some addresses out; the first part lists those that were there. -/
def takeOut : List (String × String) → KeyMap Schema.dataspace.Val →
    List (String × String) × KeyMap Schema.dataspace.Val
  | [], stored => ([], stored)
  | (key, uri) :: uris, stored =>
    let (taken, rest) := takeOut uris (stored.erase uri)
    (if stored.contains uri then (key, uri) :: taken else taken, rest)

/-- Deletes dataspaces; at least one of them must be there. -/
def onDeleteDataspaces : Method World .deleteDataspaces := fun (uris, _) _ peer world =>
  let (taken, rest) := takeOut uris.entries world.dataspaces
  let world := { world with dataspaces := rest }
  if taken.isEmpty then ⟨.error .notFound, peer, world⟩
  else reply ⟨.deleteDataspacesResponse, KeyMap.ofList taken, ()⟩ peer world

/-- The dataspace service. -/
def dataspace : Service World .dataspace := fun r _ =>
  match r with
  | ⟨.getDataspaces, _⟩ =>
    some (fun _ _ peer world =>
      reply ⟨.getDataspacesResponse, world.dataspaces.values, ()⟩ peer world)
  | ⟨.putDataspaces, _⟩ => some onPutDataspaces
  | ⟨.deleteDataspaces, _⟩ => some onDeleteDataspaces
  | _ => none

/-- A number with at least eight digits. -/
def eightDigits (n : Nat) : String :=
  let digits := Nat.toDigits 10 n
  String.ofList (List.replicate (8 - digits.length) '0' ++ digits)

/-- The generated resource with a number. -/
def resource (n : Nat) : Schema.resource.Val :=
  let (_, uris, _, rest) := Schema.resource.default
  ("eml:///dataspace('test')/resqml20.obj_Grid2dRepresentation(" ++ eightDigits n ++ ")", uris,
    "grid " ++ toString n, rest)

/-- The discovery service, which lists generated resources. -/
def discovery (count : Nat) : Service World .discovery := fun r _ =>
  match r with
  | ⟨.getResources, _⟩ =>
    some (fun _ _ peer world =>
      reply ⟨.getResourcesResponse, (List.range count).map resource, ()⟩ peer world)
  | _ => none

/-- Stores a data object under its address. -/
def World.putObject (world : World) (object : DataObject) : World :=
  { world with objects := world.objects.insert object.uri object }

/-- Hands out data objects; all of them must be there. -/
def onGetDataObjects : Method World .getDataObjects := fun (uris, _) _ peer world =>
  let found := uris.entries.mapM (fun e => (world.objects.get? e.2).map (fun o => (e.1, o)))
  match found with
  | none => ⟨.error .notFound, peer, world⟩
  | some entries => reply ⟨.getDataObjectsResponse, KeyMap.ofList entries, ()⟩ peer world

/-- The store service. -/
def store : Service World .store := fun r _ =>
  match r with
  | ⟨.putDataObjects, _⟩ =>
    some (fun (objects, _) _ peer world =>
      reply ⟨.putDataObjectsResponse,
        objects.mapValues (fun _ => Schema.putResponse.default), ()⟩ peer
        (objects.values.foldl World.putObject world))
  | ⟨.getDataObjects, _⟩ => some onGetDataObjects
  | _ => none

/-- The protocols that the core service offers. -/
def advertised : List Schema.supportedProtocol.Val :=
  [Protocol.discovery, .store, .dataspace].map (Registry.offer .server)

/-- The registry with all example services; discovery lists `count` resources. -/
def registry (count : Nat) : Registry World where
  handler
    | .core => some (core advertised).handler
    | .discovery => some (discovery count).handler
    | .store => some store.handler
    | .dataspace => some dataspace.handler
    | _ => none

end Etp.Example
