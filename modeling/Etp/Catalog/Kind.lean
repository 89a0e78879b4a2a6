import Etp.Catalog.Channels
import Etp.Catalog.Discovery
import Etp.Catalog.Growing
import Etp.Catalog.Objects
import Etp.Catalog.Session
import Etp.Schema.Field

/-!
# The kinds of message bodies

`Kind` enumerates every body type of the catalog and `Kind.type` gives its entry.  Two protocols may
use one name for their bodies; such kinds carry the name of the protocol as well.
-/

namespace Etp

/-- The kinds of message bodies. -/
inductive Kind where
  | requestSession
  | openSession
  | closeSession
  | authorize
  | authorizeResponse
  | ping
  | pong
  | protocolException
  | acknowledge
  | getResources
  | getResourcesResponse
  | getDeletedResources
  | getDeletedResourcesResponse
  | getResourcesEdgesResponse
  | getDataObjects
  | putDataObjects
  | deleteDataObjects
  | getDataObjectsResponse
  | storeChunk
  | putDataObjectsResponse
  | deleteDataObjectsResponse
  | findDataObjects
  | findDataObjectsResponse
  | storeQueryChunk
  | getDataspaces
  | getDataspacesResponse
  | putDataspaces
  | deleteDataspaces
  | deleteDataspacesResponse
  | putDataspacesResponse
  | getSupportedTypes
  | getSupportedTypesResponse
  | getFrameMetadata
  | getFrameMetadataResponse
  | getFrame
  | getFrameResponseHeader
  | cancelGetFrame
  | getFrameResponseRows
  | objectChanged
  | objectDeleted
  | unsubscribeNotifications
  | objectAccessRevoked
  | subscribeNotifications
  | subscriptionEnded
  | unsolicitedStoreNotifications
  | subscribeNotificationsResponse
  | objectActiveStatusChanged
  | deleteParts
  | getParts
  | getPartsByRange
  | putParts
  | getPartsResponse
  | replacePartsByRange
  | getPartsMetadata
  | getPartsMetadataResponse
  | getPartsByRangeResponse
  | deletePartsResponse
  | replacePartsByRangeResponse
  | putPartsResponse
  | getGrowingDataObjectsHeader
  | getGrowingDataObjectsHeaderResponse
  | putGrowingDataObjectsHeader
  | putGrowingDataObjectsHeaderResponse
  | growingObjectGetChangeAnnotations
  | growingObjectGetChangeAnnotationsResponse
  | partsChanged
  | partsDeleted
  | unsubscribePartNotification
  | partsReplacedByRange
  | subscribePartNotifications
  | partSubscriptionEnded
  | unsolicitedPartNotifications
  | subscribePartNotificationsResponse
  | startTransaction
  | startTransactionResponse
  | commitTransaction
  | rollbackTransaction
  | commitTransactionResponse
  | rollbackTransactionResponse
  | getChannelMetadata
  | getChannelMetadataResponse
  | subscribeChannels
  | channelSubscribeChannelData
  | rangeReplaced
  | unsubscribeChannels
  | subscriptionsStopped
  | getRanges
  | getRangesResponse
  | cancelGetRanges
  | subscribeChannelsResponse
  | channelsTruncated
  | channelSubscribeGetChangeAnnotations
  | channelSubscribeGetChangeAnnotationsResponse
  | openChannels
  | openChannelsResponse
  | closeChannels
  | channelDataLoadChannelData
  | replaceRange
  | channelsClosed
  | replaceRangeResponse
  | truncateChannels
  | truncateChannelsResponse
  deriving DecidableEq, Repr

namespace Kind

open Catalog

/-- The catalog entry of a kind. -/
def type : Kind → BodyType
  | requestSession => Core.requestSession
  | openSession => Core.openSession
  | closeSession => Core.closeSession
  | authorize => Core.authorize
  | authorizeResponse => Core.authorizeResponse
  | ping => Core.ping
  | pong => Core.pong
  | protocolException => Core.protocolException
  | acknowledge => Core.acknowledge
  | getResources => Discovery.getResources
  | getResourcesResponse => Discovery.getResourcesResponse
  | getDeletedResources => Discovery.getDeletedResources
  | getDeletedResourcesResponse => Discovery.getDeletedResourcesResponse
  | getResourcesEdgesResponse => Discovery.getResourcesEdgesResponse
  | getDataObjects => Store.getDataObjects
  | putDataObjects => Store.putDataObjects
  | deleteDataObjects => Store.deleteDataObjects
  | getDataObjectsResponse => Store.getDataObjectsResponse
  | storeChunk => Store.chunk
  | putDataObjectsResponse => Store.putDataObjectsResponse
  | deleteDataObjectsResponse => Store.deleteDataObjectsResponse
  | findDataObjects => StoreQuery.findDataObjects
  | findDataObjectsResponse => StoreQuery.findDataObjectsResponse
  | storeQueryChunk => StoreQuery.chunk
  | getDataspaces => Dataspace.getDataspaces
  | getDataspacesResponse => Dataspace.getDataspacesResponse
  | putDataspaces => Dataspace.putDataspaces
  | deleteDataspaces => Dataspace.deleteDataspaces
  | deleteDataspacesResponse => Dataspace.deleteDataspacesResponse
  | putDataspacesResponse => Dataspace.putDataspacesResponse
  | getSupportedTypes => SupportedTypes.getSupportedTypes
  | getSupportedTypesResponse => SupportedTypes.getSupportedTypesResponse
  | getFrameMetadata => ChannelDataFrame.getFrameMetadata
  | getFrameMetadataResponse => ChannelDataFrame.getFrameMetadataResponse
  | getFrame => ChannelDataFrame.getFrame
  | getFrameResponseHeader => ChannelDataFrame.getFrameResponseHeader
  | cancelGetFrame => ChannelDataFrame.cancelGetFrame
  | getFrameResponseRows => ChannelDataFrame.getFrameResponseRows
  | objectChanged => StoreNotification.objectChanged
  | objectDeleted => StoreNotification.objectDeleted
  | unsubscribeNotifications => StoreNotification.unsubscribeNotifications
  | objectAccessRevoked => StoreNotification.objectAccessRevoked
  | subscribeNotifications => StoreNotification.subscribeNotifications
  | subscriptionEnded => StoreNotification.subscriptionEnded
  | unsolicitedStoreNotifications => StoreNotification.unsolicitedStoreNotifications
  | subscribeNotificationsResponse => StoreNotification.subscribeNotificationsResponse
  | objectActiveStatusChanged => StoreNotification.objectActiveStatusChanged
  | deleteParts => GrowingObject.deleteParts
  | getParts => GrowingObject.getParts
  | getPartsByRange => GrowingObject.getPartsByRange
  | putParts => GrowingObject.putParts
  | getPartsResponse => GrowingObject.getPartsResponse
  | replacePartsByRange => GrowingObject.replacePartsByRange
  | getPartsMetadata => GrowingObject.getPartsMetadata
  | getPartsMetadataResponse => GrowingObject.getPartsMetadataResponse
  | getPartsByRangeResponse => GrowingObject.getPartsByRangeResponse
  | deletePartsResponse => GrowingObject.deletePartsResponse
  | replacePartsByRangeResponse => GrowingObject.replacePartsByRangeResponse
  | putPartsResponse => GrowingObject.putPartsResponse
  | getGrowingDataObjectsHeader => GrowingObject.getGrowingDataObjectsHeader
  | getGrowingDataObjectsHeaderResponse => GrowingObject.getGrowingDataObjectsHeaderResponse
  | putGrowingDataObjectsHeader => GrowingObject.putGrowingDataObjectsHeader
  | putGrowingDataObjectsHeaderResponse => GrowingObject.putGrowingDataObjectsHeaderResponse
  | growingObjectGetChangeAnnotations => GrowingObject.getChangeAnnotations
  | growingObjectGetChangeAnnotationsResponse => GrowingObject.getChangeAnnotationsResponse
  | partsChanged => GrowingObjectNotification.partsChanged
  | partsDeleted => GrowingObjectNotification.partsDeleted
  | unsubscribePartNotification => GrowingObjectNotification.unsubscribePartNotification
  | partsReplacedByRange => GrowingObjectNotification.partsReplacedByRange
  | subscribePartNotifications => GrowingObjectNotification.subscribePartNotifications
  | partSubscriptionEnded => GrowingObjectNotification.partSubscriptionEnded
  | unsolicitedPartNotifications => GrowingObjectNotification.unsolicitedPartNotifications
  | subscribePartNotificationsResponse =>
    GrowingObjectNotification.subscribePartNotificationsResponse
  | startTransaction => Transaction.startTransaction
  | startTransactionResponse => Transaction.startTransactionResponse
  | commitTransaction => Transaction.commitTransaction
  | rollbackTransaction => Transaction.rollbackTransaction
  | commitTransactionResponse => Transaction.commitTransactionResponse
  | rollbackTransactionResponse => Transaction.rollbackTransactionResponse
  | getChannelMetadata => ChannelSubscribe.getChannelMetadata
  | getChannelMetadataResponse => ChannelSubscribe.getChannelMetadataResponse
  | subscribeChannels => ChannelSubscribe.subscribeChannels
  | channelSubscribeChannelData => ChannelSubscribe.channelData
  | rangeReplaced => ChannelSubscribe.rangeReplaced
  | unsubscribeChannels => ChannelSubscribe.unsubscribeChannels
  | subscriptionsStopped => ChannelSubscribe.subscriptionsStopped
  | getRanges => ChannelSubscribe.getRanges
  | getRangesResponse => ChannelSubscribe.getRangesResponse
  | cancelGetRanges => ChannelSubscribe.cancelGetRanges
  | subscribeChannelsResponse => ChannelSubscribe.subscribeChannelsResponse
  | channelsTruncated => ChannelSubscribe.channelsTruncated
  | channelSubscribeGetChangeAnnotations => ChannelSubscribe.getChangeAnnotations
  | channelSubscribeGetChangeAnnotationsResponse => ChannelSubscribe.getChangeAnnotationsResponse
  | openChannels => ChannelDataLoad.openChannels
  | openChannelsResponse => ChannelDataLoad.openChannelsResponse
  | closeChannels => ChannelDataLoad.closeChannels
  | channelDataLoadChannelData => ChannelDataLoad.channelData
  | replaceRange => ChannelDataLoad.replaceRange
  | channelsClosed => ChannelDataLoad.channelsClosed
  | replaceRangeResponse => ChannelDataLoad.replaceRangeResponse
  | truncateChannels => ChannelDataLoad.truncateChannels
  | truncateChannelsResponse => ChannelDataLoad.truncateChannelsResponse

/-- All kinds, in the order of the catalog. -/
def all : List Kind :=
  [requestSession, openSession, closeSession, authorize, authorizeResponse, ping, pong,
    protocolException, acknowledge, getResources, getResourcesResponse, getDeletedResources,
    getDeletedResourcesResponse, getResourcesEdgesResponse, getDataObjects, putDataObjects,
    deleteDataObjects, getDataObjectsResponse, storeChunk, putDataObjectsResponse,
    deleteDataObjectsResponse, findDataObjects, findDataObjectsResponse, storeQueryChunk,
    getDataspaces, getDataspacesResponse, putDataspaces, deleteDataspaces,
    deleteDataspacesResponse, putDataspacesResponse, getSupportedTypes, getSupportedTypesResponse,
    getFrameMetadata, getFrameMetadataResponse, getFrame, getFrameResponseHeader, cancelGetFrame,
    getFrameResponseRows, objectChanged, objectDeleted, unsubscribeNotifications,
    objectAccessRevoked, subscribeNotifications, subscriptionEnded, unsolicitedStoreNotifications,
    subscribeNotificationsResponse, objectActiveStatusChanged, deleteParts, getParts,
    getPartsByRange, putParts, getPartsResponse, replacePartsByRange, getPartsMetadata,
    getPartsMetadataResponse, getPartsByRangeResponse, deletePartsResponse,
    replacePartsByRangeResponse, putPartsResponse, getGrowingDataObjectsHeader,
    getGrowingDataObjectsHeaderResponse, putGrowingDataObjectsHeader,
    putGrowingDataObjectsHeaderResponse, growingObjectGetChangeAnnotations,
    growingObjectGetChangeAnnotationsResponse, partsChanged, partsDeleted,
    unsubscribePartNotification, partsReplacedByRange, subscribePartNotifications,
    partSubscriptionEnded, unsolicitedPartNotifications, subscribePartNotificationsResponse,
    startTransaction, startTransactionResponse, commitTransaction, rollbackTransaction,
    commitTransactionResponse, rollbackTransactionResponse, getChannelMetadata,
    getChannelMetadataResponse, subscribeChannels, channelSubscribeChannelData, rangeReplaced,
    unsubscribeChannels, subscriptionsStopped, getRanges, getRangesResponse, cancelGetRanges,
    subscribeChannelsResponse, channelsTruncated, channelSubscribeGetChangeAnnotations,
    channelSubscribeGetChangeAnnotationsResponse, openChannels, openChannelsResponse,
    closeChannels, channelDataLoadChannelData, replaceRange, channelsClosed, replaceRangeResponse,
    truncateChannels, truncateChannelsResponse]

/-- The protocol that a kind belongs to. -/
def protocol (k : Kind) : Protocol := k.type.protocol

/-- The number that a header gives to a kind within its protocol. -/
def number (k : Kind) : Int32 := k.type.number

/-- The name of a kind within its protocol. -/
def name (k : Kind) : String := k.type.name

/-- The shape of the bodies of a kind. -/
def shape (k : Kind) : Shape := k.type.shape

/-- The kind that a header announces by a protocol and a number. -/
def find? (protocol number : Int32) : Option Kind :=
  all.find? (fun k => k.protocol.id == protocol && k.number == number)

/-- A name of its own for every kind: the name within the protocol, after the name of the protocol
where another protocol uses the name too. -/
def label (k : Kind) : String :=
  if all.any (fun other => other.name == k.name && other.protocol != k.protocol)
  then k.protocol.name ++ k.name
  else k.name

/-- Whether the name says that bodies of the kind hold many entries: it ends in `s`, or in
`sResponse` for an answer. -/
def isPlural (k : Kind) : Bool :=
  "s".toList.isSuffixOf k.name.toList || "sResponse".toList.isSuffixOf k.name.toList

/-- The field whose entries can be spread over several messages. -/
def collection (k : Kind) : Option (Collection k.shape) :=
  k.type.cut.bind (Collection.named? k.shape)

theorem mem_all (k : Kind) : k ∈ all := by
  cases k <;> decide

end Kind

end Etp
