import MetadataGraph.Binary64.Decimal
import MetadataGraph.Catalog.Category
import MetadataGraph.Instance.Status
import MetadataGraph.Store.Guard
import MetadataGraph.Text.Quoted

/-!
# Errors

An `Error` is the cause for which an operation was refused. Its kind says what a caller can do about
it, its message says it in words. An operation can also fail without an answer to its caller: a
`Failure` is either of the two.
-/

namespace MetadataGraph

/-! ## Kinds -/

/-- The kinds of errors. -/
inductive ErrorKind where
  | notKnown
  | proxyOnly
  | alreadyDeleted
  | notDeleted
  | invalidState
  | typeMismatch
  | typeError
  | propertyError
  | classification
  | conflict
  | repository
  | invalidParameter
  | serialization
  | deserialization
  | inputOutput
  deriving DecidableEq

namespace ErrorKind

/-- The words that a message of this kind starts with. -/
def label : ErrorKind → String
  | notKnown => "Instance not known"
  | proxyOnly => "Entity is only stored as a proxy"
  | alreadyDeleted => "Instance is deleted"
  | notDeleted => "Instance is not deleted"
  | invalidState => "Invalid instance state"
  | typeMismatch => "Type mismatch"
  | typeError => "Type error"
  | propertyError => "Property error"
  | classification => "Classification error"
  | conflict => "Conflict"
  | repository => "Repository error"
  | invalidParameter => "Invalid parameter"
  | serialization => "Serialization error"
  | deserialization => "Deserialization error"
  | inputOutput => "IO error"

/-- A message of this kind with its details. -/
def message (kind : ErrorKind) (detail : String) : String := kind.label ++ ": " ++ detail

/-- Whether the same call can succeed when it is made again. -/
def isRetryable (kind : ErrorKind) : Bool := kind = repository

/-- Whether nothing usable was found under an identity. -/
def isNotFound (kind : ErrorKind) : Bool := kind = notKnown || kind = proxyOnly

/-- Whether the instance was in the wrong one of the states live and deleted. -/
def isStatusViolation (kind : ErrorKind) : Bool := kind = alreadyDeleted || kind = notDeleted

end ErrorKind

/-! ## Causes -/

/-- Ways in which an instance is in the wrong state for an operation. -/
inductive StateFault where
  /-- A new version was to be made from another instance. -/
  | versionOfOther (mutated prior : Guid)
  /-- The status on delete is the deleted one. -/
  | deletedOnDelete (guid : Guid)
  /-- A deleted instance without the status it had. -/
  | noStatusOnDelete (guid : Guid)
  /-- A live instance with a status on delete. -/
  | liveWithStatusOnDelete (guid : Guid)
  /-- A transaction without statements. -/
  | emptyTransaction
  /-- There is no earlier version to go back to. -/
  | noPreviousVersion (guid : Guid)
  deriving DecidableEq

/-- Ways in which a type does not fit. -/
inductive TypeFault where
  /-- The type is of another category. -/
  | wrongCategory (name : TypeName) (actual expected : TypeCategory)
  /-- There is no such type. -/
  | unknownType (name : TypeName)
  /-- The type does not allow the status. -/
  | invalidStatus (status : Status) (name : TypeName)
  deriving DecidableEq

/-- Ways in which a classification does not fit. -/
inductive ClassificationFault where
  /-- Its name is not that of a classification type. -/
  | notAClassification (fault : TypeFault)
  /-- Its type does not apply to entities of this type. -/
  | inapplicable (name entityType : TypeName)
  /-- The entity carries it already. -/
  | alreadyClassified (guid : Guid) (name : TypeName)
  /-- The entity does not carry it. -/
  | notClassified (guid : Guid) (name : TypeName)
  deriving DecidableEq

/-- Ways in which ownership forbids a change to a copy. -/
inductive ConflictFault where
  /-- The local collection owns the instance that a copy would replace or remove. -/
  | ownedLocally (guid : Guid) (collection : CollectionId)
  /-- The instance has another owner than the one named. -/
  | ownedByOther (guid : Guid) (home expected : CollectionId)
  deriving DecidableEq

/-- Ways in which an argument is unusable. -/
inductive ParameterFault where
  /-- The user is not named. -/
  | blankUser
  /-- An argument is blank. -/
  | blank (parameter : String)
  /-- A page is larger than allowed. -/
  | pageTooLarge (size limit : Nat)
  /-- A read in the future. -/
  | asOfInFuture
  /-- A window that ends before it starts. -/
  | windowReversed
  /-- A negative depth other than -1. -/
  | depthTooSmall (depth : Int)
  /-- A copy of an instance that the local collection owns. -/
  | copyOfLocal (guid : Guid) (collection : CollectionId)
  /-- The local collection neither owns nor replicates the instance. -/
  | ownedElsewhere (guid : Guid) (home : CollectionId)
  /-- The new owner is the old one. -/
  | alreadyHomed (guid : Guid) (home : CollectionId)
  /-- The owner is not the one named. -/
  | notHomedIn (guid : Guid) (home expected : CollectionId)
  /-- A search pattern that cannot be read. -/
  | invalidPattern (source : String)
  /-- Membership was asked for in something that is no list. -/
  | membershipNeedsArray (property : String)
  /-- A condition on no property. -/
  | unnamedProperty
  /-- A condition on no classification. -/
  | unnamedClassification
  /-- A classification condition on something that is no entity. -/
  | classificationsNeedEntities
  /-- Ordering by a property that is not named. -/
  | noSequencingProperty
  /-- The deleted status was asked for as if it were a live one. -/
  | deletedStatus
  /-- A new entity that is deleted. -/
  | entityCreatedDeleted
  /-- A new relationship that is deleted. -/
  | relationshipCreatedDeleted
  /-- A status change that would delete an entity. -/
  | entityDeletedByStatus
  /-- A status change that would delete a relationship. -/
  | relationshipDeletedByStatus
  /-- The new identity is the old one. -/
  | sameGuid (parameter : String) (guid : Guid)
  /-- A copy of a classification that the local collection owns. -/
  | classificationOwnedLocally (name : TypeName)
  /-- A write buffer of no size. -/
  | emptyWriteBuffer
  /-- Too few write buffers or background jobs. -/
  | tooFewBuffersOrJobs
  /-- A filter density that is not a positive number. -/
  | filterBits (bits : Binary64)
  /-- A collection without an identity. -/
  | blankCollectionId
  /-- Pages of no size. -/
  | emptyPages
  deriving DecidableEq

/-- The cause for which an operation was refused. -/
inductive Error where
  /-- Nothing is stored. -/
  | notKnown (what : String)
  /-- Only a proxy is stored. -/
  | proxyOnly (what : String)
  /-- The instance is deleted. -/
  | alreadyDeleted (guid : Guid)
  /-- The instance is not deleted. -/
  | notDeleted (guid : Guid)
  /-- The instance is in the wrong state. -/
  | invalidState (fault : StateFault)
  /-- A type is not the one expected, nor a subtype of it. -/
  | typeMismatch (expected found : TypeName)
  /-- A type does not fit. -/
  | typeError (fault : TypeFault)
  /-- A type does not declare a property. -/
  | undeclaredProperty (property : String) (type : TypeName)
  /-- A classification does not fit. -/
  | classification (fault : ClassificationFault)
  /-- Ownership forbids the change. -/
  | conflict (fault : ConflictFault)
  /-- Another change came first: a guard found something else than it demands. -/
  | transactionConflict (guid : Guid) (guard : Guard) (stored : Option UInt64)
  /-- An argument is unusable. -/
  | invalidParameter (fault : ParameterFault)
  /-- A document is not what it should be. -/
  | unreadableDocument
  deriving DecidableEq

/-! ## Messages -/

/-- The fault in words. -/
def StateFault.text : StateFault → String
  | versionOfOther mutated prior => s!"cannot version {mutated} from {prior}"
  | deletedOnDelete guid => s!"{guid} records DELETED as its status on delete"
  | noStatusOnDelete guid => s!"{guid} is deleted without a status on delete"
  | liveWithStatusOnDelete guid => s!"{guid} carries a status on delete but is not deleted"
  | emptyTransaction => "empty transaction"
  | noPreviousVersion guid => s!"{guid} has no previous version to restore"

/-- The fault in words. -/
def TypeFault.text : TypeFault → String
  | wrongCategory name actual expected =>
    s!"{name} is a {actual.text} type, not {expected.text}"
  | unknownType name => s!"unknown type {name}"
  | invalidStatus status name => s!"status {status.name} is not valid for {name}"

/-- The fault in words; a fault of the type is told as the message of a type error. -/
def ClassificationFault.text : ClassificationFault → String
  | notAClassification fault => ErrorKind.typeError.message fault.text
  | inapplicable name entityType => s!"{name} cannot classify an entity of type {entityType}"
  | alreadyClassified guid name => s!"{guid} is already classified as {name}"
  | notClassified guid name => s!"{guid} is not classified as {name}"

/-- The fault in words. -/
def ConflictFault.text : ConflictFault → String
  | ownedLocally guid collection =>
    s!"{guid} is homed in the local collection {collection}, reference copy rejected"
  | ownedByOther guid home expected => s!"{guid} is homed in {home}, not {expected}"

/-- The fault in words. -/
def ParameterFault.text : ParameterFault → String
  | blankUser => "userId must not be blank"
  | blank parameter => s!"{parameter} must not be blank"
  | pageTooLarge size limit => s!"pageSize {size} exceeds the maximum of {limit}"
  | asOfInFuture => "asOfTime must not be in the future"
  | windowReversed => "fromTime must not be after toTime"
  | depthTooSmall depth => s!"level {depth} is below -1"
  | copyOfLocal guid collection =>
    s!"reference copy {guid} claims to be homed in the local collection {collection}"
  | ownedElsewhere guid home => s!"{guid} is a reference copy owned by {home}"
  | alreadyHomed guid home => s!"{guid} is already homed in {home}"
  | notHomedIn guid home expected => s!"{guid} is homed in {home}, not {expected}"
  | invalidPattern source => "invalid search pattern " ++ Text.quoted source
  | membershipNeedsArray property => s!"IN condition on {property} needs an array value"
  | unnamedProperty => "property condition without a property name"
  | unnamedClassification => "classification condition without a name"
  | classificationsNeedEntities => "classification conditions only apply to entities"
  | noSequencingProperty => "sequencingProperty is required for property ordering"
  | deletedStatus => "status DELETED can only be reached through delete"
  | entityCreatedDeleted => "an entity cannot be created as DELETED"
  | relationshipCreatedDeleted => "a relationship cannot be created as DELETED"
  | entityDeletedByStatus => "use delete_entity to delete an entity"
  | relationshipDeletedByStatus => "use delete_relationship to delete a relationship"
  | sameGuid parameter guid => s!"{parameter} must differ from {guid}"
  | classificationOwnedLocally name => s!"classification {name} is homed in the local collection"
  | emptyWriteBuffer => "write buffer sizes must be positive"
  | tooFewBuffersOrJobs => "write buffer count and background jobs must be at least 1"
  | filterBits bits => "bloom filter bits per key must be positive, got " ++ bits.messageText
  | blankCollectionId => "collection_id must not be blank"
  | emptyPages => "max_page_size must be positive"

/-- A version that is there or not, in words. -/
def storedVersionText : Option UInt64 → String
  | none => "None"
  | some version => s!"Some({version})"

namespace Error

/-- The details of a conflict of transactions. -/
def conflictText (detail : String) : String := "transaction conflict: " ++ detail

/-- The kind of an error. -/
def kind : Error → ErrorKind
  | notKnown _ => .notKnown
  | proxyOnly _ => .proxyOnly
  | alreadyDeleted _ => .alreadyDeleted
  | notDeleted _ => .notDeleted
  | invalidState _ => .invalidState
  | typeMismatch _ _ => .typeMismatch
  | typeError _ => .typeError
  | undeclaredProperty _ _ => .propertyError
  | classification _ => .classification
  | conflict _ => .conflict
  | transactionConflict _ _ _ => .repository
  | invalidParameter _ => .invalidParameter
  | unreadableDocument => .deserialization

/-- The details of an error in words. -/
def detail : Error → String
  | notKnown what | proxyOnly what => what
  | alreadyDeleted guid | notDeleted guid => guid
  | invalidState fault => fault.text
  | typeMismatch expected found => s!"expected {expected}, found {found}"
  | typeError fault => fault.text
  | undeclaredProperty property type => s!"{property} is not a property of {type}"
  | classification fault => fault.text
  | conflict fault => fault.text
  | transactionConflict guid guard stored =>
    conflictText s!"{guid} failed {guard.text} (stored version {storedVersionText stored})"
  | invalidParameter fault => fault.text
  | unreadableDocument => "the document does not have the expected form"

/-- The error in words. -/
def message (error : Error) : String := error.kind.message error.detail

end Error

/-! ## Outcomes -/

/-- Why an operation has no result. -/
inductive Failure where
  /-- It was refused, and its caller is told the cause. -/
  | refused (error : Error)
  /-- A sum did not fit into 64 bits. This is no refusal: the operation is cut off there, before it
  has written anything, and its caller gets no answer. -/
  | overflow
  deriving DecidableEq

/-- The kind of the error that the caller is told, if it is told one. -/
def Failure.kind? : Failure → Option ErrorKind
  | refused error => some error.kind
  | overflow => none

/-- What an operation gives: a result, or the reason why there is none. -/
abbrev Outcome (α : Type) := Except Failure α

namespace Outcome

/-- Refuse for a cause unless a condition holds. -/
def require (condition : Bool) (error : Error) : Outcome Unit :=
  if condition then .ok () else .error (.refused error)

/-- The value, or a refusal if there is none. -/
def ofOption {α : Type} (error : Error) : Option α → Outcome α
  | none => .error (.refused error)
  | some value => .ok value

end Outcome

end MetadataGraph
