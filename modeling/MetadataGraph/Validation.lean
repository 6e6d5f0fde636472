import MetadataGraph.Error
import MetadataGraph.Instance.Header
import MetadataGraph.Revision
import MetadataGraph.Text.Blank

/-!
# Checks of arguments

The checks that operations make of their arguments before they look at what is stored.
-/

namespace MetadataGraph.Validation

/-- The user must be named. -/
def userId (user : UserId) : Outcome Unit :=
  .require (!Text.isBlank user) (.invalidParameter .blankUser)

/-- A name or an identity must not be blank. -/
def notBlank (text parameter : String) : Outcome Unit :=
  .require (!Text.isBlank text) (.invalidParameter (.blank parameter))

/-- The page size to use: a size of zero asks for the default, as far as that is allowed. -/
def pageSize (size default limit : Nat) : Outcome Nat :=
  if limit < size then .error (.refused (.invalidParameter (.pageTooLarge size limit)))
  else .ok (if size = 0 then min default limit else size)

/-- A read must not look into the future. -/
def asOf (asOf : AsOf) (now : Instant) : Outcome Unit :=
  .require (asOf.validTime.all (· ≤ now)) (.invalidParameter .asOfInFuture)

/-- A window must not end before it starts. -/
def window (window : Window) : Outcome Unit :=
  match window.start, window.finish with
  | some start, some finish => .require (start ≤ finish) (.invalidParameter .windowReversed)
  | _, _ => .ok ()

/-- A depth is -1, for no bound, or not negative. -/
def depth (depth : Int32) : Outcome Unit :=
  .require (-1 ≤ depth.toInt) (.invalidParameter (.depthTooSmall depth.toInt))

/-- A copy must belong to another collection. -/
def referenceCopy (header : Header) (collection : CollectionId) : Outcome Unit := do
  notBlank header.guid "guid"
  .require (!header.isHomedIn collection) (.invalidParameter (.copyOfLocal header.guid collection))

/-- Only what a collection owns or replicates can be changed in it. -/
def canUpdate (header : Header) (collection : CollectionId) : Outcome Unit :=
  .require (header.isUpdatableBy collection)
    (.invalidParameter (.ownedElsewhere header.guid header.home))

/-- A new owner must differ from the old one. -/
def newHome (header : Header) (home : CollectionId) : Outcome Unit :=
  .require (!header.isHomedIn home) (.invalidParameter (.alreadyHomed header.guid home))

end MetadataGraph.Validation
