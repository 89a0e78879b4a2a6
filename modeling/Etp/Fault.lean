import Etp.Message.Basic
import Etp.Schema.Handshake

/-!
# Faults

A fault is what an endpoint reports to its peer when it cannot do what a message asks for.  Every
fault has a code and a text, and is sent as a `ProtocolException` body.
-/

namespace Etp

/-- A fault that is reported to the peer. -/
inductive Fault where
  | noRole
  | noSupportedProtocols
  | invalidMessageType
  | unsupportedProtocol (protocol : Int32)
  | invalidArgument
  | requestDenied (reason : String)
  | notSupported
  | invalidState
  | invalidUri
  | expiredToken
  | notFound
  | limitExceeded
  | compressionNotSupported
  | invalidObject
  | maxTransactionsExceeded
  | contentTypeNotSupported
  | maxSizeExceeded
  | multipartCancelled
  | invalidMessage
  | invalidIndexKind
  | noSupportedFormats
  | requestUuidRejected
  | updateGrowingObjectDenied
  | backPressureLimitExceeded
  | backPressureWarning
  | timedOut
  | authorizationRequired
  | authorizationExpiring
  | noSupportedDataObjectTypes
  | responseCountExceeded
  | invalidAppend
  | invalidOperation
  | invalidChannelId
  | unsupportedObject
  | noCascadeDelete
  | pluralObject
  | growingPortionIgnored
  | retentionPeriodExceeded
  | notGrowingObject
  | internal (reason : String)
  deriving DecidableEq

namespace Fault

/-- The code of a fault. -/
def code : Fault → Int32
  | noRole => 1
  | noSupportedProtocols => 2
  | invalidMessageType => 3
  | unsupportedProtocol _ => 4
  | invalidArgument => 5
  | requestDenied _ => 6
  | notSupported => 7
  | invalidState => 8
  | invalidUri => 9
  | expiredToken => 10
  | notFound => 11
  | limitExceeded => 12
  | compressionNotSupported => 13
  | invalidObject => 14
  | maxTransactionsExceeded => 15
  | contentTypeNotSupported => 16
  | maxSizeExceeded => 17
  | multipartCancelled => 18
  | invalidMessage => 19
  | invalidIndexKind => 20
  | noSupportedFormats => 21
  | requestUuidRejected => 22
  | updateGrowingObjectDenied => 23
  | backPressureLimitExceeded => 24
  | backPressureWarning => 25
  | timedOut => 26
  | authorizationRequired => 27
  | authorizationExpiring => 28
  | noSupportedDataObjectTypes => 29
  | responseCountExceeded => 30
  | invalidAppend => 31
  | invalidOperation => 32
  | invalidChannelId => 1002
  | unsupportedObject => 4001
  | noCascadeDelete => 4003
  | pluralObject => 4004
  | growingPortionIgnored => 4005
  | retentionPeriodExceeded => 5001
  | notGrowingObject => 6001
  | internal _ => -1

/-- The name of a fault. -/
def name : Fault → String
  | noRole => "NoRole"
  | noSupportedProtocols => "NoSupportedProtocols"
  | invalidMessageType => "InvalidMessageType"
  | unsupportedProtocol _ => "UnsupportedProtocol"
  | invalidArgument => "InvalidArgument"
  | requestDenied _ => "RequestDenied"
  | notSupported => "NotSupported"
  | invalidState => "InvalidState"
  | invalidUri => "InvalidUri"
  | expiredToken => "ExpiredToken"
  | notFound => "NotFound"
  | limitExceeded => "LimitExceeded"
  | compressionNotSupported => "CompressionNotSupported"
  | invalidObject => "InvalidObject"
  | maxTransactionsExceeded => "MaxTransactionsExceeded"
  | contentTypeNotSupported => "ContentTypeNotSupported"
  | maxSizeExceeded => "MaxSizeExceeded"
  | multipartCancelled => "MultipartCancelled"
  | invalidMessage => "InvalidMessage"
  | invalidIndexKind => "InvalidIndexKind"
  | noSupportedFormats => "NoSupportedFormats"
  | requestUuidRejected => "RequestUuidRejected"
  | updateGrowingObjectDenied => "UpdateGrowingObjectDenied"
  | backPressureLimitExceeded => "BackPressureLimitExceeded"
  | backPressureWarning => "BackPressureWarning"
  | timedOut => "TimedOut"
  | authorizationRequired => "AuthorizationRequired"
  | authorizationExpiring => "AuthorizationExpiring"
  | noSupportedDataObjectTypes => "NoSupportedDataObjectTypes"
  | responseCountExceeded => "ResponseCountExceeded"
  | invalidAppend => "InvalidAppend"
  | invalidOperation => "InvalidOperation"
  | invalidChannelId => "InvalidChannelId"
  | unsupportedObject => "UnsupportedObject"
  | noCascadeDelete => "NoCascadeDelete"
  | pluralObject => "PluralObject"
  | growingPortionIgnored => "GrowingPortionIgnored"
  | retentionPeriodExceeded => "RetentionPeriodExceeded"
  | notGrowingObject => "NotGrowingObject"
  | internal _ => "Internal"

/-- The faults that need no detail. -/
def plain : List Fault :=
  [noRole, noSupportedProtocols, invalidMessageType, invalidArgument, notSupported, invalidState,
    invalidUri, expiredToken, notFound, limitExceeded, compressionNotSupported, invalidObject,
    maxTransactionsExceeded, contentTypeNotSupported, maxSizeExceeded, multipartCancelled,
    invalidMessage, invalidIndexKind, noSupportedFormats, requestUuidRejected,
    updateGrowingObjectDenied, backPressureLimitExceeded, backPressureWarning, timedOut,
    authorizationRequired, authorizationExpiring, noSupportedDataObjectTypes,
    responseCountExceeded, invalidAppend, invalidOperation, invalidChannelId, unsupportedObject,
    noCascadeDelete, pluralObject, growingPortionIgnored, retentionPeriodExceeded,
    notGrowingObject]

/-- The text of a fault. -/
def message : Fault → String
  | noRole => "The endpoint does not support the requested role."
  | noSupportedProtocols => "The server does not support any of the requested protocols."
  | invalidMessageType =>
    "The message type ID is either not defined at all in the ETP Specification or not a "
      ++ "correct message type ID for the receiving role."
  | unsupportedProtocol protocol =>
    "The endpoint does not support the protocol (#" ++ toString protocol.toInt
      ++ ") identified in a message header."
  | invalidArgument => "Logically invalid argument."
  | requestDenied reason => "Server has denied the request. " ++ reason
  | notSupported => "The operation is not supported by the endpoint."
  | invalidState => "The message is not allowed in the current state of the protocol."
  | invalidUri => "The URI sent is either a malformed URI or is not a valid URI format for ETP."
  | expiredToken => "The security token is expired."
  | notFound => "Resource not found."
  | limitExceeded => "Request exceeds allowed limits."
  | compressionNotSupported => "Message can not be compressed."
  | invalidObject => "Invalid XML document."
  | maxTransactionsExceeded => "Maximum number of transactions per ETP session has been exceeded."
  | contentTypeNotSupported => "The content type is not supported by the server."
  | maxSizeExceeded =>
    "Operation exceeds the stores maximum advertised MaxDataObjectSize, MaxPartSize, or "
      ++ "MaxDataArraySize."
  | multipartCancelled => "Canceled transmission of multi-message response."
  | invalidMessage => "Unable to deserialize the header or body of a message."
  | invalidIndexKind => "IndexKind used in message is invalid for the dataset."
  | noSupportedFormats => "No agreement can be reached on the format (XML or JSON) of data objects."
  | requestUuidRejected => "Rejects a customer-assigned request UUID (requestUuid)."
  | updateGrowingObjectDenied =>
    "Tried to update an existing growing object using Store (Protocol 4)."
  | backPressureLimitExceeded => "Receiver's outgoing buffers capacity exceeded."
  | backPressureWarning => "Back Pressure Warning."
  | timedOut => "Response timeout"
  | authorizationRequired => "Authorization required."
  | authorizationExpiring => "Authorization expiring."
  | noSupportedDataObjectTypes =>
    "The server does not support any of the client's supported data object types."
  | responseCountExceeded => "Response count exceeded."
  | invalidAppend =>
    "Sent in response to a ChannelData message that is not appending data to a channel."
  | invalidOperation => "Invalid operation."
  | invalidChannelId => "Operations are requested on a channel that does not exist."
  | unsupportedObject => "The data object type is not supported by the store."
  | noCascadeDelete => "Store does not support cascading deletes."
  | pluralObject => "ETP only supports a single data object, one XML document."
  | growingPortionIgnored => "Customer supplies the growing portion in a Put."
  | retentionPeriodExceeded => "Ask for changes beyond the stated change period of a server."
  | notGrowingObject =>
    "Growing object operation on an object that is not defined as a growing object type."
  | internal reason => reason

/-- The record of a fault in a message. -/
def info (f : Fault) : Schema.errorInfo.Val := (f.message, f.code, ())

/-- The body that reports a fault. -/
def toBody (f : Fault) : Body := ⟨.protocolException, some f.info, KeyMap.empty, ()⟩

/-- The message that reports a fault; it is not marked as final. -/
def toMessage (f : Fault) (messageId correlationId : Int64) : Message :=
  ((Message.ofBody f.toBody).withId messageId).withCorrelation correlationId

end Fault

end Etp
