import MetadataGraph.Proofs.Collection.CutOff
import MetadataGraph.Proofs.Collection.StatusInvariant
import MetadataGraph.Proofs.Collection.VersionCount

/-!
# The range of versions

A version has 64 bits, and the next one is made without a look at how many are left. A copy brings
its version along, and goes on from there once the collection changes it. We prove:

* `putsVersion_of_planned`: where the version of what an operation puts comes from;
* `versionsWithin_after`: an event adds one at most to the versions that are stored or come with it;
* `increments_exact`: a next version that is written is the number after the one before; an
  operation that is cut off has met the last version, and in a run that starts without instances no
  version comes there unless copies and the number of events take it;
* `cutOff_takeOver`: a copy at the last version cannot be taken over.
-/

namespace MetadataGraph

open Element Instance

/-- The version of a record is at most a number, unless it is that of a proxy. -/
def Record.VersionWithin (bound : Nat) (record : Record) : Prop :=
  record.kind ≠ .proxy → record.header.version.toNat ≤ bound

theorem Record.VersionWithin.mono {bound larger : Nat} {record : Record}
    (h : record.VersionWithin bound) (hle : bound ≤ larger) : record.VersionWithin larger :=
  fun hkind => Nat.le_trans (h hkind) hle

namespace Collection

variable {collection : Collection} {call : Call} {fresh guid : Guid} {operation : Operation}
  {statements : List Statement} {record prior : Record} {guard : Guard}

/-! ## Where versions come from -/

/-- Where the version of what an operation puts comes from. -/
inductive PutsVersion (collection : Collection) (operation : Operation) : Record → Guard → Prop
  /-- A proxy has whatever version it comes with. -/
  | proxy {proxy : Proxy} : PutsVersion collection operation (.proxy proxy) .noFullEntity
  /-- A new instance has the first one. -/
  | first {record : Record} (hcreates : operation.isCreation)
      (hversion : record.header.version = 1) : PutsVersion collection operation record .absent
  /-- A copy has the one that it comes with, or that of what it is made from. -/
  | copied {record source : Record}
      (hsource : (∃ guid, collection.store.latest guid = some source) ∨
        source ∈ operation.supplied)
      (hkind : source.kind ≠ .proxy) (hversion : record.header.version = source.header.version) :
      PutsVersion collection operation record .always
  /-- The next version of what is stored or has come has the number after. -/
  | next {record source : Record}
      (hsource : (∃ guid, collection.store.latest guid = some source) ∨
        source ∈ operation.supplied)
      (hkind : source.kind ≠ .proxy) (hleft : source.header.version ≠ lastVersion)
      (hversion : record.header.version = source.header.version + 1) :
      PutsVersion collection operation record (.version source.header.version)
  /-- So has an element under its new identity. -/
  | renamed {record source : Record} {kind : ElementKind} {guid newGuid : Guid}
      (hoperation : operation = .change kind guid (.reIdentify newGuid))
      (hlatest : collection.store.latest guid = some source) (hkind : source.kind ≠ .proxy)
      (hleft : source.header.version ≠ lastVersion)
      (hversion : record.header.version = source.header.version + 1) :
      PutsVersion collection operation record .absent

/-- An element is stored in full. -/
theorem kind_toRecord_ne_proxy {kind : ElementKind} (element : kind.Carrier) :
    (toRecord element).kind ≠ .proxy := by
  cases kind <;> exact RecordKind.noConfusion

/-- An element that succeeds a stored one has the number after. -/
theorem PutsVersion.of_succeeds {kind : ElementKind} {current next : kind.Carrier}
    (hlatest : collection.store.latest guid = some (toRecord current))
    (hnext : Versioning.Succeeds next current) :
    collection.PutsVersion operation (toRecord next) (.version (version current)) := by
  have hversion : (toRecord next).header.version = (toRecord current).header.version + 1 := by
    rw [header_toRecord, header_toRecord]
    exact hnext.version_eq
  have hleft : (toRecord current).header.version ≠ lastVersion := by
    rw [header_toRecord]
    exact hnext.fits
  have hput : collection.PutsVersion operation (toRecord next)
      (.version (toRecord current).header.version) :=
    .next (.inl ⟨guid, hlatest⟩) (kind_toRecord_ne_proxy current) hleft hversion
  rwa [header_toRecord current] at hput

/-- The version of whatever an operation puts comes from where the list says. -/
theorem putsVersion_of_planned (hcoherent : collection.store.Coherent)
    (h : collection.Planned call fresh operation statements)
    (hmem : .put record guard ∈ statements) : collection.PutsVersion operation record guard := by
  cases h with
  | nothing => cases hmem
  | addEntity entity typeRef hoperation =>
    cases List.mem_singleton.mp hmem
    exact .first (hoperation ▸ rfl) (by cases entity.source <;> rfl)
  | addRelationship relationship typeRef endOne endTwo hoperation =>
    cases List.mem_singleton.mp hmem
    exact .first (hoperation ▸ rfl) (by cases relationship.source <;> rfl)
  | addProxy =>
    cases List.mem_singleton.mp hmem
    exact .proxy
  | change kind guid change current edited next hoperation hlatest hedits hnext =>
    cases List.mem_singleton.mp hmem
    have hsucceeds := Versioning.Succeeds.of_nextVersion hnext
    cases kind <;> exact .of_succeeds hlatest hsucceeds
  | purge | purgeCopy => exact absurd hmem Plan.put_not_mem_purge
  | reIdentify kind guid newGuid current hoperation hne hlatest hlive hleft =>
    rcases List.mem_append.mp hmem with hmem | hmem
    · rcases mem_moves_iff.mp hmem with ⟨relationship, hedge, hput⟩ | hput
      · cases hput
        -- only an entity has relationships, and those are stored
        cases kind with
        | entity =>
          exact .next (.inl ⟨_, (hcoherent.mem_edges_iff.mp hedge).1⟩)
            (@kind_toRecord_ne_proxy .relationship relationship) (hleft.edge _ hedge) rfl
        | relationship => exact absurd hedge List.not_mem_nil
      · cases hput
        have hsucceeds := Versioning.succeeds_retired hleft.element call.stamp
        cases kind <;> exact .of_succeeds hlatest hsucceeds
    · cases List.mem_singleton.mp hmem
      refine .renamed hoperation hlatest (kind_toRecord_ne_proxy current) ?_ ?_
      · rw [header_toRecord]
        exact hleft.element
      · rw [header_toRecord, header_toRecord, Versioning.renamed, header_setHeader]
        rfl
  | relabel guid current labelled next hcurrent hheader hnext hlive =>
    cases List.mem_singleton.mp hmem
    have hsucceeds := Versioning.Succeeds.of_nextVersion hnext
    exact .next (hcurrent.imp_left fun hlatest => ⟨guid, hlatest⟩)
      (@kind_toRecord_ne_proxy .entity current) hsucceeds.fits hsucceeds.version_eq
  | relabelCopy guid current labelled hcopy hcurrent hheader =>
    cases List.mem_singleton.mp hmem
    exact .copied (hcurrent.imp_left fun hlatest => ⟨guid, hlatest⟩)
      (@kind_toRecord_ne_proxy .entity current) (congrArg Header.version hheader)
  | saveEntity entity hoperation =>
    cases List.mem_singleton.mp hmem
    exact .copied (.inr (hoperation ▸ List.mem_singleton_self _))
      (@kind_toRecord_ne_proxy .entity entity) rfl
  | saveRelationship relationship hoperation =>
    rcases List.mem_append.mp hmem with hmem | hmem
    · obtain ⟨proxy, -, hput⟩ := List.mem_map.mp hmem
      cases hput
      exact .proxy
    · cases List.mem_singleton.mp hmem
      exact .copied (.inr (hoperation ▸ List.mem_singleton_self _))
        (@kind_toRecord_ne_proxy .relationship relationship) rfl

/-! ## Versions of a run -/

/-- What an operation puts has a version that is at most one after those that are stored or come
with it. -/
theorem PutsVersion.versionWithin {bound : Nat}
    (h : collection.PutsVersion operation record guard)
    (hstore : collection.store.AllRevisions (Record.VersionWithin bound))
    (hsupplied : ∀ supplied ∈ operation.supplied, supplied.VersionWithin bound) :
    record.VersionWithin (bound + 1) := by
  intro hrecord
  have hle {source : Record} (hsource : (∃ guid, collection.store.latest guid = some source) ∨
      source ∈ operation.supplied) (hkind : source.kind ≠ .proxy) :
      source.header.version.toNat ≤ bound := by
    rcases hsource with ⟨guid, hlatest⟩ | hmem
    · exact hstore.of_latest hlatest hkind
    · exact hsupplied source hmem hkind
  cases h with
  | proxy => exact absurd rfl hrecord
  | first hcreates hversion =>
    rw [hversion]
    exact Nat.le_add_left 1 bound
  | copied hsource hkind hversion =>
    rw [hversion]
    exact Nat.le_succ_of_le (hle hsource hkind)
  | next hsource hkind hleft hversion =>
    rw [hversion, Versioning.toNat_add_one hleft]
    exact Nat.succ_le_succ (hle hsource hkind)
  | renamed hoperation hlatest hkind hleft hversion =>
    rw [hversion, Versioning.toNat_add_one hleft]
    exact Nat.succ_le_succ (hle (.inl ⟨_, hlatest⟩) hkind)

/-- An event adds one at most to the versions that are stored or come with it. -/
theorem versionsWithin_after (hcoherent : collection.store.Coherent) {bound : Nat} {event : Event}
    (hstore : collection.store.AllRevisions (Record.VersionWithin bound))
    (hsupplied : ∀ supplied ∈ event.supplied, supplied.VersionWithin bound) :
    (collection.after event).store.AllRevisions (Record.VersionWithin (bound + 1)) := by
  rcases collection.planned_of_after event with
    hsame | ⟨call, fresh, operation, statements, reply, receipt, rfl, -, hplanned, hsubmit⟩
  · rw [hsame]
    exact fun guid revision hmem => (hstore guid revision hmem).mono (Nat.le_succ bound)
  · obtain ⟨-, hnext, -⟩ := Store.submit_eq_ok_iff.mp hsubmit
    rw [← hnext]
    have hstore' : collection.store.AllRevisions (Record.VersionWithin (bound + 1)) :=
      fun guid revision hmem => (hstore guid revision hmem).mono (Nat.le_succ bound)
    exact hstore'.carriedOut (fun record guard hmem =>
      (putsVersion_of_planned hcoherent hplanned hmem).versionWithin hstore hsupplied) call.now

/-- In a run the versions are at most as many numbers after those that come with it as it has
events. -/
theorem versionsWithin_run {start : Collection} (hreachable : start.Reachable)
    (hempty : start.store = .empty) {bound : Nat} {events : List Event}
    (hsupplied : ∀ event ∈ events, ∀ supplied ∈ event.supplied, supplied.VersionWithin bound) :
    (start.run events).store.AllRevisions (Record.VersionWithin (bound + events.length)) := by
  induction events using List.reverseRecOn with
  | nil =>
    rw [run_nil, hempty]
    exact Store.allRevisions_empty _
  | append_singleton events event ih =>
    have hbefore := ih fun event hmem => hsupplied event (List.mem_append_left _ hmem)
    rw [run_append, List.length_append]
    refine versionsWithin_after (hreachable.run events).store.coherent hbefore fun record hmem => ?_
    exact (hsupplied event (List.mem_append_right _ (List.mem_singleton_self event)) record
      hmem).mono (Nat.le_add_right bound _)

/-! ## Next versions -/

/-- An accepted operation writes a record as the next version of a stored one: over it, or as a
re-identification does under a new identity. -/
inductive Increments (collection : Collection) : Event → Record → Record → Prop
  | replaces {call : Call} {fresh : Guid} {operation : Operation} {plan : Plan} {next : Collection}
      {reply : Reply} {prior record : Record}
      (accepted : collection.execute call fresh operation = .ok (next, reply))
      (planned : collection.plan call fresh operation = .ok plan)
      (stored : collection.store.latest record.guid = some prior)
      (puts : .put record (.version prior.header.version) ∈ plan.statements) :
      Increments collection (.operate call fresh operation) prior record
  | renames {call : Call} {fresh guid newGuid : Guid} {kind : ElementKind} {plan : Plan}
      {next : Collection} {reply : Reply} {prior record : Record}
      (accepted : collection.execute call fresh (.change kind guid (.reIdentify newGuid)) =
        .ok (next, reply))
      (planned : collection.plan call fresh (.change kind guid (.reIdentify newGuid)) = .ok plan)
      (stored : collection.store.latest guid = some prior)
      (puts : .put record .absent ∈ plan.statements) :
      Increments collection (.operate call fresh (.change kind guid (.reIdentify newGuid))) prior
        record

/-- A next version that is written is one more than the version before, which is not the last. -/
theorem Increments.version_eq {event : Event} (hcoherent : collection.store.Coherent)
    (h : collection.Increments event prior record) :
    prior.header.version ≠ lastVersion ∧
      record.header.version = prior.header.version + 1 := by
  cases h with
  | replaces accepted planned stored puts =>
    -- the guard tells which of the ways to get a version it is
    have hputs := putsVersion_of_planned hcoherent (planned_of_plan planned) puts
    generalize hguard : Guard.version prior.header.version = guard at hputs
    cases hputs with
    | next hsource hkind hleft hversion =>
      rw [Guard.version.inj hguard]
      exact ⟨hleft, hversion⟩
    | proxy | first | copied | renamed => cases hguard
  | renames accepted planned stored puts =>
    have hputs := putsVersion_of_planned hcoherent (planned_of_plan planned) puts
    generalize hguard : Guard.absent = guard at hputs
    cases hputs with
    | renamed hoperation hlatest hkind hleft hversion =>
      cases hoperation
      cases stored.symm.trans hlatest
      exact ⟨hleft, hversion⟩
    | first hcreates => cases hcreates
    | proxy | copied | next => cases hguard

/-- The event is an operation that is cut off. -/
def CutOff (collection : Collection) : Event → Prop
  | .addType _ => False
  | .operate call fresh operation =>
    collection.execute call fresh operation = .error .overflow

/-- An event that is cut off has met an element at the last version. -/
theorem CutOff.exists_lastVersion {event : Event} (hcoherent : collection.store.Coherent)
    (h : collection.CutOff event) :
    ∃ guid record, collection.store.latest guid = some record ∧ record.kind ≠ .proxy ∧
      record.header.version = lastVersion := by
  cases event with
  | addType type => exact h.elim
  | operate call fresh operation => exact exists_lastVersion_of_overflow hcoherent h

/-- In a run that starts without instances every next version that is written is the number after
the one before, and larger. An operation that is cut off has met an element at the last version,
which is at most as many numbers after the versions that came with copies as the run has events. -/
theorem increments_exact {start : Collection} (hreachable : start.Reachable)
    (hempty : start.store = .empty) (before : List Event) (event : Event) :
    (∀ prior record, (start.run before).Increments event prior record →
      record.header.version.toNat = prior.header.version.toNat + 1 ∧
        prior.header.version < record.header.version) ∧
    ((start.run before).CutOff event →
      (∃ guid record, (start.run before).store.latest guid = some record ∧
        record.kind ≠ .proxy ∧ record.header.version = lastVersion) ∧
      ∀ bound, (∀ earlier ∈ before, ∀ supplied ∈ earlier.supplied,
          supplied.VersionWithin bound) →
        lastVersion.toNat ≤ bound + before.length) := by
  have hcoherent := (hreachable.run before).store.coherent
  refine ⟨fun prior record hincrements => ?_, fun hcut => ?_⟩
  · obtain ⟨hleft, hversion⟩ := hincrements.version_eq hcoherent
    have hexact := Versioning.toNat_add_one hleft
    rw [UInt64.lt_iff_toNat_lt, hversion, hexact]
    exact ⟨rfl, Nat.lt_succ_self _⟩
  · obtain ⟨guid, record, hlatest, hkind, hlast⟩ := hcut.exists_lastVersion hcoherent
    refine ⟨⟨guid, record, hlatest, hkind, hlast⟩, fun bound hsupplied => ?_⟩
    -- what stands at the last version is within the bound of the run, as all that is stored
    have hwithin := (versionsWithin_run hreachable hempty hsupplied).of_latest hlatest hkind
    rwa [hlast] at hwithin

/-- A run in which the copy of an entity comes with a version. -/
private def copies (version : UInt64) : List Event :=
  let copy : Entity := .new
    { Header.new "asset" ⟨"Asset", []⟩ "remote" ⟨"bob", .earliest⟩ with version } ∅ []
  [.addType ⟨"Asset", .entity, none, [], [], [], none, []⟩,
    .operate ⟨"ada", .earliest⟩ "" (.saveEntity copy)]

/-- The call by which the collection takes the entity over. -/
private def takeOver : Event :=
  .operate ⟨"ada", .earliest⟩ "" (.change .entity "asset" (.reHome "remote" "local" "Local"))

/-- What is stored of the entity after a run. -/
private def assetAfter (events : List Event) : Option Record :=
  (run ⟨default, ∅, .empty⟩ events).store.latest "asset"

/-- The copy of version 7 gets version 8 when the collection takes the entity over. -/
theorem increments_exact_copy :
    ∃ prior record, (run ⟨default, ∅, .empty⟩ (copies 7)).Increments takeOver prior record ∧
      prior.header.version = 7 ∧ record.header.version.toNat = 8 ∧
      assetAfter (copies 7 ++ [takeOver]) = some record := by
  obtain ⟨prior, record, hincrements, hprior, hrecord⟩ : ∃ prior record,
      (run ⟨default, ∅, .empty⟩ (copies 7)).Increments takeOver prior record ∧
        prior.header.version = 7 ∧ assetAfter (copies 7 ++ [takeOver]) = some record :=
    ⟨_, _, .replaces rfl rfl rfl (List.mem_singleton_self _), rfl, rfl⟩
  obtain ⟨hversion, -⟩ := (increments_exact (.start default ∅) rfl (copies 7) takeOver).1 _ _
    hincrements
  refine ⟨prior, record, hincrements, hprior, ?_, hrecord⟩
  rw [hversion, hprior]
  rfl

/-- The copy that comes with the last version cannot be taken over: the call is cut off, and what is
stored stays as it is. -/
theorem cutOff_takeOver :
    (run ⟨default, ∅, .empty⟩ (copies lastVersion)).CutOff takeOver ∧
      (assetAfter (copies lastVersion)).map (·.header.version) = some lastVersion ∧
        assetAfter (copies lastVersion ++ [takeOver]) = assetAfter (copies lastVersion) :=
  ⟨rfl, rfl, rfl⟩

end Collection

end MetadataGraph
