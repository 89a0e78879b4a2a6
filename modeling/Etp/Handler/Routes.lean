import Etp.Catalog.Kind

/-!
# Routing tables

The adapter of a protocol hands each body to a method.  Its routing table lists the kinds of bodies that it
takes, each with the name of the method for it, in the order in which a body is compared with them.
Protocols without message bodies have no adapter.
-/

namespace Etp

/-- A row of a routing table: a kind of bodies and the name of the method that answers them. -/
structure Route where
  kind : Kind
  method : String
  deriving DecidableEq

/-- The routing table of the adapter of a protocol. -/
def Protocol.routes : Protocol → List Route
  | .core =>
    [⟨.requestSession, "on_request_session"⟩, ⟨.openSession, "on_open_session"⟩,
      ⟨.closeSession, "on_close_session"⟩, ⟨.authorize, "on_authorize"⟩,
      ⟨.authorizeResponse, "on_authorize_response"⟩, ⟨.ping, "on_ping"⟩, ⟨.pong, "on_pong"⟩,
      ⟨.protocolException, "on_protocol_exception"⟩, ⟨.acknowledge, "on_acknowledge"⟩]
  | .discovery =>
    [⟨.getResources, "on_get_resources"⟩, ⟨.getResourcesResponse, "on_get_resources_response"⟩,
      ⟨.getDeletedResources, "on_get_deleted_resources"⟩,
      ⟨.getDeletedResourcesResponse, "on_get_deleted_resources_response"⟩,
      ⟨.getResourcesEdgesResponse, "on_get_resources_edges_response"⟩]
  | .store =>
    [⟨.getDataObjects, "on_get_data_objects"⟩, ⟨.putDataObjects, "on_put_data_objects"⟩,
      ⟨.deleteDataObjects, "on_delete_data_objects"⟩,
      ⟨.getDataObjectsResponse, "on_get_data_objects_response"⟩, ⟨.storeChunk, "on_chunk"⟩,
      ⟨.putDataObjectsResponse, "on_put_data_objects_response"⟩,
      ⟨.deleteDataObjectsResponse, "on_delete_data_objects_response"⟩]
  | .storeQuery =>
    [⟨.findDataObjects, "on_find_data_objects"⟩,
      ⟨.findDataObjectsResponse, "on_find_data_objects_response"⟩, ⟨.storeQueryChunk, "on_chunk"⟩]
  | .dataspace =>
    [⟨.getDataspaces, "on_get_dataspaces"⟩, ⟨.getDataspacesResponse, "on_get_dataspaces_response"⟩,
      ⟨.putDataspaces, "on_put_dataspaces"⟩, ⟨.deleteDataspaces, "on_delete_dataspaces"⟩,
      ⟨.deleteDataspacesResponse, "on_delete_dataspaces_response"⟩,
      ⟨.putDataspacesResponse, "on_put_dataspaces_response"⟩]
  | .supportedTypes =>
    [⟨.getSupportedTypes, "on_get_supported_types"⟩,
      ⟨.getSupportedTypesResponse, "on_get_supported_types_response"⟩]
  | .channelDataFrame =>
    [⟨.cancelGetFrame, "on_cancel_get_frame"⟩, ⟨.getFrame, "on_get_frame"⟩,
      ⟨.getFrameMetadata, "on_get_frame_metadata"⟩,
      ⟨.getFrameMetadataResponse, "on_get_frame_metadata_response"⟩,
      ⟨.getFrameResponseHeader, "on_get_frame_response_header"⟩,
      ⟨.getFrameResponseRows, "on_get_frame_response_rows"⟩]
  | .storeNotification =>
    [⟨.objectAccessRevoked, "on_object_access_revoked"⟩,
      ⟨.objectActiveStatusChanged, "on_object_active_status_changed"⟩,
      ⟨.objectChanged, "on_object_changed"⟩, ⟨.objectDeleted, "on_object_deleted"⟩,
      ⟨.subscribeNotifications, "on_subscribe_notifications"⟩,
      ⟨.subscribeNotificationsResponse, "on_subscribe_notifications_response"⟩,
      ⟨.subscriptionEnded, "on_subscription_ended"⟩,
      ⟨.unsolicitedStoreNotifications, "on_unsolicited_store_notifications"⟩,
      ⟨.unsubscribeNotifications, "on_unsubscribe_notifications"⟩]
  | .growingObject =>
    [⟨.deleteParts, "on_delete_parts"⟩, ⟨.deletePartsResponse, "on_delete_parts_response"⟩,
      ⟨.growingObjectGetChangeAnnotations, "on_get_change_annotations"⟩,
      ⟨.growingObjectGetChangeAnnotationsResponse, "on_get_change_annotations_response"⟩,
      ⟨.getGrowingDataObjectsHeader, "on_get_growing_data_objects_header"⟩,
      ⟨.getGrowingDataObjectsHeaderResponse, "on_get_growing_data_objects_header_response"⟩,
      ⟨.getParts, "on_get_parts"⟩, ⟨.getPartsByRange, "on_get_parts_by_range"⟩,
      ⟨.getPartsByRangeResponse, "on_get_parts_by_range_response"⟩,
      ⟨.getPartsMetadata, "on_get_parts_metadata"⟩,
      ⟨.getPartsMetadataResponse, "on_get_parts_metadata_response"⟩,
      ⟨.getPartsResponse, "on_get_parts_response"⟩,
      ⟨.putGrowingDataObjectsHeader, "on_put_growing_data_objects_header"⟩,
      ⟨.putGrowingDataObjectsHeaderResponse, "on_put_growing_data_objects_header_response"⟩,
      ⟨.putParts, "on_put_parts"⟩, ⟨.putPartsResponse, "on_put_parts_response"⟩,
      ⟨.replacePartsByRange, "on_replace_parts_by_range"⟩,
      ⟨.replacePartsByRangeResponse, "on_replace_parts_by_range_response"⟩]
  | .growingObjectNotification =>
    [⟨.partSubscriptionEnded, "on_part_subscription_ended"⟩, ⟨.partsChanged, "on_parts_changed"⟩,
      ⟨.partsDeleted, "on_parts_deleted"⟩, ⟨.partsReplacedByRange, "on_parts_replaced_by_range"⟩,
      ⟨.subscribePartNotifications, "on_subscribe_part_notifications"⟩,
      ⟨.subscribePartNotificationsResponse, "on_subscribe_part_notifications_response"⟩,
      ⟨.unsolicitedPartNotifications, "on_unsolicited_part_notifications"⟩,
      ⟨.unsubscribePartNotification, "on_unsubscribe_part_notification"⟩]
  | .transaction =>
    [⟨.commitTransaction, "on_commit_transaction"⟩,
      ⟨.commitTransactionResponse, "on_commit_transaction_response"⟩,
      ⟨.rollbackTransaction, "on_rollback_transaction"⟩,
      ⟨.rollbackTransactionResponse, "on_rollback_transaction_response"⟩,
      ⟨.startTransaction, "on_start_transaction"⟩,
      ⟨.startTransactionResponse, "on_start_transaction_response"⟩]
  | .channelSubscribe =>
    [⟨.cancelGetRanges, "on_cancel_get_ranges"⟩, ⟨.channelSubscribeChannelData, "on_channel_data"⟩,
      ⟨.channelsTruncated, "on_channels_truncated"⟩,
      ⟨.channelSubscribeGetChangeAnnotations, "on_get_change_annotations"⟩,
      ⟨.channelSubscribeGetChangeAnnotationsResponse, "on_get_change_annotations_response"⟩,
      ⟨.getChannelMetadata, "on_get_channel_metadata"⟩,
      ⟨.getChannelMetadataResponse, "on_get_channel_metadata_response"⟩,
      ⟨.getRanges, "on_get_ranges"⟩, ⟨.getRangesResponse, "on_get_ranges_response"⟩,
      ⟨.rangeReplaced, "on_range_replaced"⟩, ⟨.subscribeChannels, "on_subscribe_channels"⟩,
      ⟨.subscribeChannelsResponse, "on_subscribe_channels_response"⟩,
      ⟨.subscriptionsStopped, "on_subscriptions_stopped"⟩,
      ⟨.unsubscribeChannels, "on_unsubscribe_channels"⟩]
  | .channelDataLoad =>
    [⟨.channelDataLoadChannelData, "on_channel_data"⟩, ⟨.channelsClosed, "on_channels_closed"⟩,
      ⟨.closeChannels, "on_close_channels"⟩, ⟨.openChannels, "on_open_channels"⟩,
      ⟨.openChannelsResponse, "on_open_channels_response"⟩, ⟨.replaceRange, "on_replace_range"⟩,
      ⟨.replaceRangeResponse, "on_replace_range_response"⟩,
      ⟨.truncateChannels, "on_truncate_channels"⟩,
      ⟨.truncateChannelsResponse, "on_truncate_channels_response"⟩]
  | .channelStreaming | .dataArray | .discoveryQuery | .growingObjectQuery | .witsmlSoap => []

end Etp
