import Mathlib.Data.List.Nodup
import SchemaLoom.Proofs.Resolution
import SchemaLoom.Proofs.UpdateLog

/-!
# Delivery of events

An update keeps the values of fields and the payloads of events in logs of their own.  However the
calls that write into it are interleaved, each event is read back with its own payloads in the order
of the calls, and merging sees nothing but the calls for fields.
-/

namespace SchemaLoom

open Wire

/-- A call that writes into an update. -/
inductive UpdateCall where
  | field (id : UInt32) (value : FieldValue)
  | event (name : String) (payload : Record)

namespace UpdateCall

def perform (codec : Codec) (typeName : String) :
    UpdateCall → Update → Update × Except CodecError Unit
  | field id value, update => codec.updateField typeName update id value
  | event name payload, update => codec.addEvent typeName name update payload

/-- The number and the value of a call for a field. -/
def fieldCall? : UpdateCall → Option (UInt32 × FieldValue)
  | field id value => some (id, value)
  | event _ _ => none

/-- The payload of a call for the named event. -/
def payload? (name : String) : UpdateCall → Option Record
  | field _ _ => none
  | event other payload => if other = name then some payload else none

/-- The calls for fields, in order. -/
def fieldCalls (calls : List UpdateCall) : List (UInt32 × FieldValue) :=
  calls.filterMap fieldCall?

/-- The payloads of the calls for the named event, in order. -/
def payloads (name : String) (calls : List UpdateCall) : List Record :=
  calls.filterMap (payload? name)

end UpdateCall

namespace Codec

/-- Make calls in turn and stop at the first failure. -/
def performCalls (codec : Codec) (typeName : String) (calls : List UpdateCall) :
    Update → Update × Except CodecError Unit :=
  Draft.performAll (calls.map (UpdateCall.perform codec typeName))

variable {codec : Codec} {typeName : String} {type : ResolvedType} {event : Event}
  {calls : List UpdateCall} {update after : Update}

/-! ## Calls for fields leave events alone -/

/-- A call for a field neither looks at the events nor changes them. -/
theorem updateField_withEvents (update : Update) (events : Object) (id : UInt32)
    (value : FieldValue) :
    codec.updateField typeName { update with events } id value =
      ({ (codec.updateField typeName update id value).1 with events },
        (codec.updateField typeName update id value).2) := by
  unfold updateField
  cases codec.type typeName with
  | error error => rfl
  | ok type =>
    cases hfind : type.fieldById? id with
    | none => simp only [hfind]
    | some field =>
      simp only [hfind]
      by_cases hfits : fits field.shape value
      · by_cases habsent : value.isAbsent
        · simp only [hfits, habsent, Bool.not_true, Bool.false_eq_true, if_false, if_true,
            Update.clear]
          split <;> rfl
        · simp only [hfits, habsent, Bool.not_true, Bool.false_eq_true, if_false]
      · simp only [hfits, Bool.not_false, if_true]

theorem events_of_updateField {id : UInt32} {value : FieldValue}
    {outcome : Except CodecError Unit}
    (hcall : codec.updateField typeName update id value = (after, outcome)) :
    after.events = update.events := by
  have hsame : codec.updateField typeName update id value =
      ({ (codec.updateField typeName update id value).1 with events := update.events },
        (codec.updateField typeName update id value).2) :=
    updateField_withEvents update update.events id value
  rw [hcall] at hsame
  exact congrArg (fun written => written.1.events) hsame

/-- A successful call for an event appends one object under the index of the event. -/
theorem exists_of_addEvent {name : String} {payload : Record}
    (hadd : codec.addEvent typeName name update payload = (after, .ok ())) :
    ∃ event object, codec.event typeName name = .ok event ∧
      codec.encode event.payload payload .empty = (object, .ok ()) ∧
        after = { update with events := update.events ++ .ofObject event.index object } := by
  unfold addEvent at hadd
  cases hevent : codec.event typeName name with
  | error error => simp [hevent] at hadd
  | ok event =>
    simp only [hevent, Object.addObject_eq, Prod.mk.injEq] at hadd
    exact ⟨event, _, rfl, Prod.ext rfl hadd.2, hadd.1.symm⟩

/-- The calls for fields succeed without the calls for events, and come to the same fields. -/
theorem updateFields_of_performCalls
    (hrun : codec.performCalls typeName calls update = (after, .ok ())) (events : Object) :
    codec.updateFields typeName (UpdateCall.fieldCalls calls) { update with events } =
      ({ after with events }, .ok ()) := by
  induction calls generalizing update with
  | nil =>
    obtain rfl : update = after := congrArg Prod.fst hrun
    rfl
  | cons call calls ih =>
    obtain ⟨first, hfirst, hrest⟩ := performAll_cons_eq_ok_iff.mp hrun
    cases call with
    | field id value =>
      have hcall : codec.updateField typeName { update with events } id value =
          ({ first with events }, .ok ()) := by
        rw [updateField_withEvents, show codec.updateField typeName update id value = _ from hfirst]
      exact (updateFields_cons (id, value) _ hcall).trans (ih hrest)
    | event name payload =>
      obtain ⟨event, object, -, -, rfl⟩ := exists_of_addEvent hfirst
      have hfields := ih hrest
      exact hfields

/-- Merging does not look at the events. -/
theorem merge_withEvents (record : Record) (update : Update) (events : Object) :
    codec.merge typeName record { update with events } = codec.merge typeName record update := rfl

/-! ## Each event has a log of its own -/

theorem event_eq_ok_iff {name : String} (htype : codec.type typeName = .ok type) :
    codec.event typeName name = .ok event ↔ type.event? name = some event := by
  unfold Codec.event
  rw [htype]
  cases hfind : type.event? name <;> simp [hfind, bind, Except.bind, pure, Except.pure]

theorem event?_eq_some_iff {name : String} (hnames : (type.events.map (·.name)).Nodup) :
    type.event? name = some event ↔ event ∈ type.events ∧ event.name = name := by
  constructor
  · intro hfind
    exact ⟨List.mem_of_find?_eq_some hfind, by simpa using List.find?_some hfind⟩
  · rintro ⟨hmem, rfl⟩
    have hsome : (type.event? event.name).isSome :=
      List.find?_isSome.mpr ⟨event, hmem, beq_self_eq_true event.name⟩
    obtain ⟨found, hfound⟩ := Option.isSome_iff_exists.mp hsome
    have hname : found.name = event.name := by simpa using List.find?_some hfound
    rw [← List.inj_on_of_nodup_map hnames (List.mem_of_find?_eq_some hfound) hmem hname]
    exact hname ▸ hfound

/-- What the calls for an event leave under its index: the payloads, encoded one by one. -/
theorem exists_objects_of_performCalls (htype : codec.type typeName = .ok type)
    (hnames : (type.events.map (·.name)).Nodup) (hindexes : (type.events.map (·.index)).Nodup)
    (hevent : event ∈ type.events)
    (hrun : codec.performCalls typeName calls update = (after, .ok ())) :
    ∃ objects,
      List.Forall₂ (fun payload object =>
        codec.encode event.payload payload .empty = (object, .ok ()))
        (UpdateCall.payloads event.name calls) objects ∧
      after.events.nested event.index = update.events.nested event.index ++ objects := by
  induction calls generalizing update with
  | nil =>
    obtain rfl : update = after := congrArg Prod.fst hrun
    exact ⟨[], .nil, (List.append_nil _).symm⟩
  | cons call calls ih =>
    obtain ⟨first, hfirst, hrest⟩ := performAll_cons_eq_ok_iff.mp hrun
    obtain ⟨objects, hobjects, hnested⟩ := ih hrest
    cases call with
    | field id value =>
      have hsame : first.events = update.events := events_of_updateField hfirst
      exact ⟨objects, hobjects, hsame ▸ hnested⟩
    | event name payload =>
      obtain ⟨other, object, hother, hencode, rfl⟩ := exists_of_addEvent hfirst
      obtain ⟨hmem, rfl⟩ := (event?_eq_some_iff hnames).mp ((event_eq_ok_iff htype).mp hother)
      by_cases heq : other.name = event.name
      · obtain rfl := List.inj_on_of_nodup_map hnames hmem hevent heq
        refine ⟨object :: objects, ?_, ?_⟩
        · simpa [UpdateCall.payloads, UpdateCall.payload?] using And.intro hencode hobjects
        · rw [hnested]
          simp
      · have hindex : event.index ≠ other.index := fun hindex =>
          heq (congrArg Event.name (List.inj_on_of_nodup_map hindexes hmem hevent hindex.symm))
        refine ⟨objects, ?_, ?_⟩
        · simpa [UpdateCall.payloads, UpdateCall.payload?, heq] using hobjects
        · have hnone : (Object.ofObject other.index object).nested event.index = [] :=
            ((Object.only_ofObject other.index object).sameAt_empty hindex).nested_eq
          rw [hnested, Object.nested_append, hnone, List.append_nil]

/-- Stable payloads are read back as they were, as many as can be counted. -/
theorem events_of_performCalls (hunique : codec.UniqueIds) (htype : codec.type typeName = .ok type)
    (hnames : (type.events.map (·.name)).Nodup) (hindexes : (type.events.map (·.index)).Nodup)
    (hevent : event ∈ type.events)
    (hrun : codec.performCalls typeName calls .empty = (update, .ok ()))
    (hstable : ∀ payload ∈ UpdateCall.payloads event.name calls,
      payload.obeys codec (.stable codec) event.payload) :
    codec.events typeName event.name update =
      .ok ((UpdateCall.payloads event.name calls).take greatestCount) := by
  obtain ⟨objects, hobjects, hnested⟩ :=
    exists_objects_of_performCalls htype hnames hindexes hevent hrun
  have hlog : update.events.nested event.index = objects := hnested
  have hfound : codec.event typeName event.name = .ok event :=
    (event_eq_ok_iff htype).mpr ((event?_eq_some_iff hnames).mpr ⟨hevent, rfl⟩)
  -- Place by place, the object written for a payload is read as the payload.
  have hread : List.Forall₂ (fun object payload =>
      (codec.decode event.payload object).mapError (CodecError.inside event.name) = .ok payload)
      objects (UpdateCall.payloads event.name calls) := by
    refine Outcome.forall₂_imp_of_mem hobjects.flip fun object _ payload hpayload hencode => ?_
    have hobeys := hstable payload hpayload
    rw [Outcome.mapError_eq_ok_iff, decode_of_encode hunique hencode
      (Record.obeys_of_implies (Rules.stable_implies_readable codec) hobeys)]
    exact congrArg Except.ok (Record.normalize_eq_self
      (Record.obeys_of_implies (Rules.stable_implies_normal codec) hobeys))
  have htaken := List.forall₂_take greatestCount hread
  rw [events, hfound]
  change (((update.events.nested event.index).take greatestCount).mapM _) = _
  rw [hlog]
  exact Outcome.mapM_eq_ok_of_forall₂ htaken

end Codec

namespace Resolution

/-- Events are delivered in order, without loss or mixing.  Let the events of a component differ in
name and in index, and let calls for its fields and events be made in any order on a new update, all
of them with success.  Then each event is read back with exactly the payloads of its own calls, in
the order of the calls, and merging the update is merging what the calls for fields alone make. -/
theorem events_delivered (resolution : Resolution) {typeName : String} {type : ResolvedType}
    (htype : resolution.codec.type typeName = .ok type)
    (hnames : (type.events.map (·.name)).Nodup) (hindexes : (type.events.map (·.index)).Nodup)
    {calls : List UpdateCall} {update : Update}
    (hrun : resolution.codec.performCalls typeName calls .empty = (update, .ok ()))
    (hstable : ∀ event ∈ type.events, ∀ payload ∈ UpdateCall.payloads event.name calls,
      payload.obeys resolution.codec (.stable resolution.codec) event.payload)
    (hcount : ∀ event ∈ type.events,
      (UpdateCall.payloads event.name calls).length ≤ greatestCount) :
    (∀ event ∈ type.events,
      resolution.codec.events typeName event.name update =
        .ok (UpdateCall.payloads event.name calls)) ∧
      ∃ alone,
        resolution.codec.updateFields typeName (UpdateCall.fieldCalls calls) .empty =
            (alone, .ok ()) ∧
          ∀ record, resolution.codec.merge typeName record update =
            resolution.codec.merge typeName record alone := by
  refine ⟨fun event hevent => ?_, { update with events := .empty }, ?_, fun record => ?_⟩
  · rw [Codec.events_of_performCalls resolution.nodup_ids htype hnames hindexes hevent hrun
      (hstable event hevent), List.take_of_length_le (hcount event hevent)]
  · exact Codec.updateFields_of_performCalls hrun .empty
  · exact (Codec.merge_withEvents record update .empty).symm

/-- A journal of lines, with an event whose index is the number of the lines, and another one. -/
def journalIndex : Index where
  entries :=
    [⟨⟨"journal.schema", ""⟩, .component
        (((ComponentDecl.declare "Journal" 7 [.list "lines" 1 (.scalar .string)]).withEvent
          "opened" 1 "Page").withEvent "closed" 2 "Page")⟩,
      ⟨⟨"journal.schema", ""⟩, .type (.declare "Page" [.singular "title" 1 (.scalar .string)])⟩]
  ascending := by decide

def ofJournal : Resolution where
  index := journalIndex
  config := {}
  trees := (journalIndex.resolveAll {} []).2.toOption.getD []
  enums := journalIndex.resolveEnums.toOption.getD []
  resolveAll_eq := rfl
  resolveEnums_eq := rfl

def page (title : String) : Record := [(1, .singular (label title))]

/-- Two pages are opened and one is closed while lines are written. -/
def journalCalls : List UpdateCall :=
  [.event "opened" (page "a"), .field 1 (.list [label "x"]), .event "closed" (page "a"),
    .event "opened" (page "b"), .field 1 (.list [label "y"])]

theorem events_delivered_journal :
    ∃ update,
      ofJournal.codec.performCalls "Journal" journalCalls .empty = (update, .ok ()) ∧
      ofJournal.codec.events "Journal" "opened" update = .ok [page "a", page "b"] ∧
      ofJournal.codec.events "Journal" "closed" update = .ok [page "a"] ∧
      ∃ alone,
        ofJournal.codec.updateFields "Journal" [(1, .list [label "x"]), (1, .list [label "y"])]
            .empty = (alone, .ok ()) ∧
          ofJournal.codec.merge "Journal" [] update = ofJournal.codec.merge "Journal" [] alone := by
  obtain ⟨type, htype, hevents⟩ : ∃ type, ofJournal.codec.type "Journal" = .ok type ∧
      type.events = [{ name := "opened", index := 1, payload := "Page" },
        { name := "closed", index := 2, payload := "Page" }] := ⟨_, rfl, rfl⟩
  have hrun : ofJournal.codec.performCalls "Journal" journalCalls .empty =
      ((ofJournal.codec.performCalls "Journal" journalCalls .empty).1, .ok ()) := by
    with_unfolding_all rfl
  obtain ⟨hread, alone, halone, hmerge⟩ := ofJournal.events_delivered htype
    (by rw [hevents]; decide) (by rw [hevents]; decide) hrun
    (by rw [hevents]; decide +kernel) (by rw [hevents]; decide)
  rw [hevents] at hread
  refine ⟨_, hrun, hread _ List.mem_cons_self, hread _ (List.mem_cons_of_mem _ List.mem_cons_self),
    alone, halone, hmerge []⟩

end Resolution

end SchemaLoom
