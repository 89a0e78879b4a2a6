/-!
# Protocols

The published protocols and the numbers by which message headers name them.
-/

namespace Etp

/-- The published protocols, in the order of their numbers. -/
inductive Protocol where
  /-- Runs the session itself. -/
  | core
  | channelStreaming
  | channelDataFrame
  | discovery
  | store
  | storeNotification
  | growingObject
  | growingObjectNotification
  | dataArray
  | discoveryQuery
  | storeQuery
  | growingObjectQuery
  | transaction
  | channelSubscribe
  | channelDataLoad
  | dataspace
  | supportedTypes
  | witsmlSoap
  deriving DecidableEq, Repr

namespace Protocol

/-- All protocols, in the order of their numbers. -/
def all : List Protocol :=
  [core, channelStreaming, channelDataFrame, discovery, store, storeNotification, growingObject,
    growingObjectNotification, dataArray, discoveryQuery, storeQuery, growingObjectQuery,
    transaction, channelSubscribe, channelDataLoad, dataspace, supportedTypes, witsmlSoap]

/-- The number of a protocol. -/
def id : Protocol → Int32
  | core => 0
  | channelStreaming => 1
  | channelDataFrame => 2
  | discovery => 3
  | store => 4
  | storeNotification => 5
  | growingObject => 6
  | growingObjectNotification => 7
  | dataArray => 9
  | discoveryQuery => 13
  | storeQuery => 14
  | growingObjectQuery => 16
  | transaction => 18
  | channelSubscribe => 21
  | channelDataLoad => 22
  | dataspace => 24
  | supportedTypes => 25
  | witsmlSoap => 2000

/-- The name of a protocol. -/
def name : Protocol → String
  | core => "Core"
  | channelStreaming => "ChannelStreaming"
  | channelDataFrame => "ChannelDataFrame"
  | discovery => "Discovery"
  | store => "Store"
  | storeNotification => "StoreNotification"
  | growingObject => "GrowingObject"
  | growingObjectNotification => "GrowingObjectNotification"
  | dataArray => "DataArray"
  | discoveryQuery => "DiscoveryQuery"
  | storeQuery => "StoreQuery"
  | growingObjectQuery => "GrowingObjectQuery"
  | transaction => "Transaction"
  | channelSubscribe => "ChannelSubscribe"
  | channelDataLoad => "ChannelDataLoad"
  | dataspace => "Dataspace"
  | supportedTypes => "SupportedTypes"
  | witsmlSoap => "WitsmlSoap"

/-- The name and the number of a protocol. -/
def text (p : Protocol) : String := p.name ++ "(" ++ toString p.id.toInt ++ ")"

/-- The protocol with a number, if one is published under it. -/
def ofId? (id : Int32) : Option Protocol := all.find? (fun p => p.id == id)

theorem mem_all (p : Protocol) : p ∈ all := by
  cases p <;> decide

theorem ofId?_id (p : Protocol) : ofId? p.id = some p := by
  cases p <;> rfl

theorem id_injective {p q : Protocol} (h : p.id = q.id) : p = q := by
  have hp := ofId?_id p
  rw [h, ofId?_id] at hp
  exact (Option.some.inj hp).symm

end Protocol

end Etp
