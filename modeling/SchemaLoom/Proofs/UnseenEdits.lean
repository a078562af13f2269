import Mathlib.Logic.Relation
import SchemaLoom.Proofs.DecodingDepth
import SchemaLoom.Proofs.Transport

/-!
# Edits that decoding does not see

A view of an object, as a record of some type or as an entry of a map, reads values at certain
places: each place is a field number with a kind, and there either all values are read or only the
last one.  Writes to different places may change their order, values at no place may come and go,
and so may values that a later one supersedes; and all of this again inside the objects that are
read.  Decoding gives the same record, or fails in the same way.
-/

namespace SchemaLoom

open Wire

/-! ## Views -/

/-- What an object is read as. -/
inductive View where
  | record (typeName : String)
  | entry (key value : Element)

/-- What the objects of an element are read as; other values are no objects. -/
def Element.view? : Element → Option View
  | .named name => some (.record name)
  | _ => none

/-- A number and a kind with which a view reads values, whether only the last value counts there,
and what the objects there are read as. -/
structure Place where
  id : UInt32
  kind : Kind
  lastOnly : Bool
  view? : Option View

/-- The place of an element that is read at a number. -/
def Element.place (element : Element) (id : UInt32) (lastOnly : Bool) : Place :=
  ⟨id, element.wire, lastOnly, element.view?⟩

def ResolvedField.place (field : ResolvedField) : Place :=
  match field.shape with
  | .singular element => element.place field.id true
  | .option element => element.place field.id true
  | .list element => element.place field.id false
  | .map key value => ⟨field.id, .object, false, some (.entry key value)⟩

/-- The places that a view reads. -/
def Codec.places (codec : Codec) : View → List Place
  | .record typeName =>
    match codec.type typeName with
    | .ok type => type.fields.map ResolvedField.place
    | .error _ => []
  | .entry key value => [key.place mapKeyId true, value.place mapValueId true]

/-! ## Edits -/

/-- A change of an object that a view of it does not see. -/
inductive Edit (codec : Codec) : View → Object → Object → Prop
  /-- Two writes to different numbers or of different kinds change their order. -/
  | swap {view : View} (before : Object) (first second : Write) (after : Object)
    (hne : (first.id, first.kind) ≠ (second.id, second.kind)) :
    Edit codec view (before ++ first.log ++ second.log ++ after)
      (before ++ second.log ++ first.log ++ after)
  /-- A value is added under a number, or of a kind, that the view does not read. -/
  | unread {view : View} (before : Object) (write : Write) (after : Object)
    (hunread : ∀ place ∈ codec.places view, (write.id, write.kind) ≠ (place.id, place.kind)) :
    Edit codec view (before ++ after) (before ++ write.log ++ after)
  /-- A value is added where only the last one counts, and a later one is there. -/
  | superseded {view : View} (before : Object) (write : Write) (after : Object) (place : Place)
    (hplace : place ∈ codec.places view) (hlast : place.lastOnly)
    (hwrite : (write.id, write.kind) = (place.id, place.kind))
    (hlater : after.written place.kind place.id ≠ 0) :
    Edit codec view (before ++ after) (before ++ write.log ++ after)
  /-- An object that the view reads is edited in turn. -/
  | inside {view inner : View} (before : Object) {left right : Object} (after : Object)
    (place : Place) (hplace : place ∈ codec.places view) (hview : place.view? = some inner)
    (hedit : Edit codec inner left right) :
    Edit codec view (before ++ (Write.object place.id left).log ++ after)
      (before ++ (Write.object place.id right).log ++ after)

/-! ## Places that show the same -/

namespace Codec

variable {codec : Codec} {read : Decoder}

/-- Both objects are read the same, given a reader of nested objects. -/
def ReadsSame (codec : Codec) (read : Decoder) : View → Object → Object → Prop
  | .record typeName, left, right => read typeName left = read typeName right
  | .entry key value, left, right =>
    codec.readEntry read key value left = codec.readEntry read key value right

/-- Two values are the same, or objects that are read the same. -/
inductive SameValue (codec : Codec) (read : Decoder) (view? : Option View) : Write → Write → Prop
  | same (write : Write) : SameValue codec read view? write write
  | objects {id : UInt32} {view : View} {left right : Object} (hview : view? = some view)
    (hread : codec.ReadsSame read view left right) :
    SameValue codec read view? (.object id left) (.object id right)

/-- The place shows the same in both objects: the last values are the same or absent, and all are if
all count. -/
structure AgreesAt (codec : Codec) (read : Decoder) (place : Place) (left right : Object) :
    Prop where
  last : Option.Rel (codec.SameValue read place.view?)
    (left.writesAt place.kind place.id).getLast? (right.writesAt place.kind place.id).getLast?
  all : place.lastOnly = false → List.Forall₂ (codec.SameValue read place.view?)
    (left.writesAt place.kind place.id) (right.writesAt place.kind place.id)

theorem SameValue.eq_of_none {left right : Write} (hsame : codec.SameValue read none left right) :
    left = right := by
  cases hsame with
  | same write => rfl
  | objects hview _ => cases hview

theorem eq_of_last_none {left right : Option Write}
    (hlast : Option.Rel (codec.SameValue read none) left right) : left = right := by
  cases hlast with
  | none => rfl
  | some hsame => rw [hsame.eq_of_none]

theorem eq_of_all_none {left right : List Write}
    (hall : List.Forall₂ (codec.SameValue read none) left right) : left = right := by
  rw [← List.forall₂_eq_eq_eq]
  exact hall.imp fun _ _ => SameValue.eq_of_none

section Reading

variable {left right : Object} {id : UInt32}

theorem readLast_of_last {element : Element}
    (hlast : Option.Rel (codec.SameValue read element.view?)
      (left.writesAt element.wire id).getLast? (right.writesAt element.wire id).getLast?) :
    codec.readLast read element left id = codec.readLast read element right id := by
  cases element with
  | scalar kind =>
    have hsame := eq_of_last_none hlast
    simp only [Element.wire, Object.writesAt, List.getLast?_map] at hsame
    have hscalars := Option.map_injective (fun _ _ heq => by simpa using heq) hsame
    rw [readLast, readLast, Object.lastScalar, Object.lastScalar, hscalars]
  | enumeration name =>
    have hsame := eq_of_last_none hlast
    simp only [Element.wire, Object.writesAt, List.getLast?_map] at hsame
    have hnumbers := Option.map_injective (fun _ _ heq => by simpa using heq) hsame
    rw [readLast, readLast, Object.lastEnumeration, Object.lastEnumeration, hnumbers]
  | named name =>
    simp only [Element.wire, Object.writesAt, List.getLast?_map] at hlast
    rw [readLast, readLast, Object.lastObject, Object.lastObject]
    generalize (left.nested id).getLast? = inner at hlast
    generalize (right.nested id).getLast? = inner' at hlast
    cases inner <;> cases inner' <;> cases hlast
    · rfl
    · next hsame =>
      cases hsame with
      | same => rfl
      | objects hview hread =>
        cases hview
        exact congrArg (·.map Value.record) hread

theorem readsSame_nested {view : View}
    (hall : List.Forall₂ (codec.SameValue read (some view))
      (left.writesAt .object id) (right.writesAt .object id)) :
    List.Forall₂ (codec.ReadsSame read view) (left.nested id) (right.nested id) := by
  simp only [Object.writesAt, List.forall₂_map_left_iff, List.forall₂_map_right_iff] at hall
  refine hall.imp fun inner inner' hsame => ?_
  cases hsame with
  | same => cases view <;> rfl
  | objects hview hread =>
    cases hview
    exact hread

theorem readAll_of_all {element : Element}
    (hall : List.Forall₂ (codec.SameValue read element.view?)
      (left.writesAt element.wire id) (right.writesAt element.wire id)) :
    codec.readAll read element left id = codec.readAll read element right id := by
  cases element with
  | scalar kind =>
    have hscalars := List.map_injective_iff.mpr (fun _ _ heq => by simpa using heq)
      (eq_of_all_none hall)
    rw [readAll, readAll, hscalars]
  | enumeration name =>
    have hnumbers := List.map_injective_iff.mpr (fun _ _ heq => by simpa using heq)
      (eq_of_all_none hall)
    rw [readAll, readAll, hnumbers]
  | named name =>
    have hnested := (readsSame_nested hall).imp fun _ _ hread => congrArg (·.map Value.record) hread
    exact Outcome.mapM_eq_of_forall₂ (List.forall₂_take greatestCount hnested)

theorem readLast_of_agreesAt {element : Element} {lastOnly : Bool}
    (hagrees : codec.AgreesAt read (element.place id lastOnly) left right) :
    codec.readLast read element left id = codec.readLast read element right id :=
  readLast_of_last hagrees.last

theorem readAll_of_agreesAt {element : Element}
    (hagrees : codec.AgreesAt read (element.place id false) left right) :
    codec.readAll read element left id = codec.readAll read element right id :=
  readAll_of_all (hagrees.all rfl)

end Reading

/-! ## One level -/

section Level

variable {left right : Object}

theorem AgreesAt.count_eq_zero_iff {place : Place}
    (hagrees : codec.AgreesAt read place left right) :
    left.count place.kind place.id = 0 ↔ right.count place.kind place.id = 0 := by
  have hlast := hagrees.last
  rw [Object.count_eq_zero_iff_getLast?, Object.count_eq_zero_iff_getLast?]
  generalize (left.writesAt place.kind place.id).getLast? = last at hlast
  generalize (right.writesAt place.kind place.id).getLast? = last' at hlast
  cases hlast with
  | none => exact Iff.rfl
  | some _ => simp

theorem place_id (field : ResolvedField) : field.place.id = field.id := by
  unfold ResolvedField.place
  cases field.shape <;> rfl

theorem place_kind (field : ResolvedField) : field.place.kind = field.wire := by
  unfold ResolvedField.place ResolvedField.wire
  cases field.shape <;> rfl

theorem mem_places_record_iff {typeName : String} {place : Place} :
    place ∈ codec.places (.record typeName) ↔
      ∃ type, codec.type typeName = .ok type ∧ ∃ field ∈ type.fields, field.place = place := by
  cases htype : codec.type typeName <;> simp [places, htype]

theorem readField_of_agreesAt {field : ResolvedField}
    (hagrees : codec.AgreesAt read field.place left right) :
    codec.readField read field left = codec.readField read field right := by
  have hcount := hagrees.count_eq_zero_iff
  rw [place_id, place_kind] at hcount
  unfold ResolvedField.place at hagrees
  unfold readField
  cases hshape : field.shape with
  | singular element =>
    simp only [hshape] at hagrees
    simp only [readLast_of_agreesAt hagrees]
  | option element =>
    simp only [hshape] at hagrees
    simp only [readLast_of_agreesAt hagrees, hcount]
  | list element =>
    simp only [hshape] at hagrees
    simp only [readAll_of_agreesAt hagrees]
  | map key value =>
    simp only [hshape] at hagrees
    have hentries := List.forall₂_take greatestCount (readsSame_nested (hagrees.all rfl))
    simp only [Outcome.mapM_eq_of_forall₂ hentries]

theorem decodeField_of_agreesAt {field : ResolvedField}
    (hagrees : codec.AgreesAt read field.place left right) (typeName : String) :
    codec.decodeField read typeName field left = codec.decodeField read typeName field right := by
  have hmissing : field.IsMissing left ↔ field.IsMissing right := by
    have hcount := hagrees.count_eq_zero_iff
    rw [place_id, place_kind] at hcount
    simp only [ResolvedField.IsMissing, hcount]
  by_cases hleft : field.IsMissing left
  · rw [decodeField_of_isMissing hleft, decodeField_of_isMissing (hmissing.mp hleft)]
  · rw [decodeField_of_not_isMissing hleft, decodeField_of_not_isMissing (mt hmissing.mpr hleft),
      readField_of_agreesAt hagrees]

/-- A record is read the same if all places of its type show the same. -/
theorem decodeFields_of_agreesAt {typeName : String}
    (hagrees : ∀ place ∈ codec.places (.record typeName), codec.AgreesAt read place left right) :
    codec.decodeFields read typeName left = codec.decodeFields read typeName right := by
  unfold decodeFields
  cases htype : codec.type typeName with
  | error error => rfl
  | ok type =>
    have hfields : ∀ field ∈ type.fields,
        (codec.decodeField read type.qualified field left >>= fun value =>
            pure (field.id, value)) =
          codec.decodeField read type.qualified field right >>= fun value =>
            pure (field.id, value) := by
      intro field hfield
      have hplace := mem_places_record_iff.mpr ⟨type, htype, field, hfield, rfl⟩
      rw [decodeField_of_agreesAt (hagrees field.place hplace)]
    exact congrArg (· >>= fun fields => pure (Record.ofList fields)) (Outcome.mapM_congr hfields)

/-- So is an entry. -/
theorem readEntry_of_agreesAt {key value : Element}
    (hagrees : ∀ place ∈ codec.places (.entry key value), codec.AgreesAt read place left right) :
    codec.readEntry read key value left = codec.readEntry read key value right := by
  have hkey := hagrees (key.place mapKeyId true) List.mem_cons_self
  have hvalue := hagrees (value.place mapValueId true) (List.mem_cons_of_mem _ List.mem_cons_self)
  rw [readEntry, readEntry, readLast_of_agreesAt hkey, readLast_of_agreesAt hvalue]

/-- What the reader of nested objects finds to every depth, a view finds to every depth. -/
theorem readsSame_of_agreesAt {view : View}
    (hagrees : ∀ depth, ∀ place ∈ codec.places view,
      codec.AgreesAt (codec.decodeTo depth) place left right) (depth : Nat) :
    codec.ReadsSame (codec.decodeTo depth) view left right := by
  cases view with
  | record typeName =>
    cases depth with
    | zero => rfl
    | succ depth => exact decodeFields_of_agreesAt (hagrees depth)
  | entry key value => exact readEntry_of_agreesAt (hagrees depth)

end Level

/-! ## What edits leave as it was -/

section Edits

variable {left right before after : Object} {view : View} {place : Place}

/-- Different places of a view have different numbers. -/
theorem eq_of_mem_places (hunique : codec.UniqueIds) {other : Place}
    (hplace : place ∈ codec.places view) (hother : other ∈ codec.places view)
    (hid : place.id = other.id) : place = other := by
  cases view with
  | record typeName =>
    obtain ⟨type, htype, field, hfield, rfl⟩ := mem_places_record_iff.mp hplace
    obtain ⟨type', htype', field', hfield', rfl⟩ := mem_places_record_iff.mp hother
    obtain rfl : type = type' := Except.ok.inj (htype.symm.trans htype')
    have hnodup := hunique type (mem_types_of_type_eq_ok htype)
    rw [place_id, place_id] at hid
    rw [List.inj_on_of_nodup_map hnodup hfield hfield' hid]
  | entry key value =>
    have hids : mapKeyId ≠ mapValueId := by decide
    simp only [places, List.mem_cons, List.not_mem_nil, or_false] at hplace hother
    rcases hplace with rfl | rfl <;> rcases hother with rfl | rfl
    · rfl
    · exact absurd hid hids
    · exact absurd hid.symm hids
    · rfl

theorem wire_of_view? {element : Element} {inner : View} (hview : element.view? = some inner) :
    element.wire = .object := by
  cases element with
  | named name => rfl
  | scalar kind => cases hview
  | enumeration name => cases hview

/-- Only objects are read as something. -/
theorem kind_of_view? (hplace : place ∈ codec.places view) {inner : View}
    (hview : place.view? = some inner) : place.kind = .object := by
  cases view with
  | record typeName =>
    obtain ⟨type, -, field, -, rfl⟩ := mem_places_record_iff.mp hplace
    rw [place_kind, ResolvedField.wire]
    unfold ResolvedField.place at hview
    cases hshape : field.shape with
    | map key value => rfl
    | singular element | option element | list element =>
      rw [hshape] at hview
      exact wire_of_view? hview
  | entry key value =>
    simp only [places, List.mem_cons, List.not_mem_nil, or_false] at hplace
    rcases hplace with rfl | rfl <;> exact wire_of_view? hview

theorem agreesAt_of_forall₂
    (hall : List.Forall₂ (codec.SameValue read place.view?)
      (left.writesAt place.kind place.id) (right.writesAt place.kind place.id)) :
    codec.AgreesAt read place left right :=
  ⟨Outcome.rel_getLast? hall, fun _ => hall⟩

theorem forall₂_sameValue (view? : Option View) (writes : List Write) :
    List.Forall₂ (codec.SameValue read view?) writes writes :=
  List.forall₂_same.mpr fun write _ => .same write

theorem agreesAt_of_eq
    (hsame : left.writesAt place.kind place.id = right.writesAt place.kind place.id) :
    codec.AgreesAt read place left right :=
  agreesAt_of_forall₂ (hsame ▸ forall₂_sameValue _ _)

theorem agreesAt_swap {first second : Write}
    (hne : (first.id, first.kind) ≠ (second.id, second.kind)) :
    codec.AgreesAt read place (before ++ first.log ++ second.log ++ after)
      (before ++ second.log ++ first.log ++ after) := by
  apply agreesAt_of_eq
  -- At most one of the two writes is to this place.
  by_cases hfirst : (first.id, first.kind) = (place.id, place.kind)
  · have hsecond := Object.writesAt_log_of_ne (hfirst ▸ hne.symm)
    simp [hsecond]
  · have hnone := Object.writesAt_log_of_ne hfirst
    simp [hnone]

theorem agreesAt_of_ne {write : Write} (hne : (write.id, write.kind) ≠ (place.id, place.kind)) :
    codec.AgreesAt read place (before ++ after) (before ++ write.log ++ after) := by
  apply agreesAt_of_eq
  simp [Object.writesAt_log_of_ne hne]

theorem agreesAt_superseded (hlast : place.lastOnly)
    (hlater : after.written place.kind place.id ≠ 0) (write : Write) :
    codec.AgreesAt read place (before ++ after) (before ++ write.log ++ after) := by
  have hnonempty : after.writesAt place.kind place.id ≠ [] := by
    rw [← List.length_pos_iff, Object.length_writesAt]
    exact Nat.pos_of_ne_zero hlater
  have hsame : ((before ++ after).writesAt place.kind place.id).getLast? =
      ((before ++ write.log ++ after).writesAt place.kind place.id).getLast? := by
    rw [Object.writesAt_append, Object.writesAt_append, List.getLast?_append_of_ne_nil _ hnonempty,
      List.getLast?_append_of_ne_nil _ hnonempty]
  refine ⟨?_, fun hall => by rw [hlast] at hall; cases hall⟩
  rw [← hsame]
  cases ((before ++ after).writesAt place.kind place.id).getLast? with
  | none => exact .none
  | some write => exact .some (.same write)

theorem agreesAt_inside {inner : View} (hkind : place.kind = .object)
    (hview : place.view? = some inner) (hread : codec.ReadsSame read inner left right) :
    codec.AgreesAt read place (before ++ (Write.object place.id left).log ++ after)
      (before ++ (Write.object place.id right).log ++ after) := by
  apply agreesAt_of_forall₂
  simp only [Object.writesAt_append, hkind]
  refine List.rel_append (List.rel_append (forall₂_sameValue _ _) ?_) (forall₂_sameValue _ _)
  have hlog : ∀ value, (Write.object place.id value).log.writesAt .object place.id =
      [.object place.id value] := fun value => Object.writesAt_log_self (.object place.id value)
  rw [hlog, hlog]
  exact .cons (.objects hview hread) .nil

theorem agreesAt_beside {other : Place} (hid : place.id ≠ other.id) :
    codec.AgreesAt read other (before ++ (Write.object place.id left).log ++ after)
      (before ++ (Write.object place.id right).log ++ after) := by
  have hnone : ∀ value, (Write.object place.id value).log.writesAt other.kind other.id = [] :=
    fun value => Object.writesAt_log_of_ne fun hsame => hid (congrArg Prod.fst hsame)
  apply agreesAt_of_eq
  simp [hnone]

/-- After an edit every place shows what it showed before. -/
theorem readsSame_of_edit (hunique : codec.UniqueIds) (hedit : Edit codec view left right) :
    ∀ depth, codec.ReadsSame (codec.decodeTo depth) view left right := by
  induction hedit with
  | swap before first second after hne =>
    exact readsSame_of_agreesAt fun depth place _ => agreesAt_swap hne
  | unread before write after hunread =>
    exact readsSame_of_agreesAt fun depth place hplace => agreesAt_of_ne (hunread place hplace)
  | superseded before write after place hplace hlast hwrite hlater =>
    refine readsSame_of_agreesAt fun depth other hother => ?_
    by_cases hsame : (write.id, write.kind) = (other.id, other.kind)
    · obtain rfl := eq_of_mem_places hunique hplace hother
        (congrArg Prod.fst (hwrite.symm.trans hsame))
      exact agreesAt_superseded hlast hlater write
    · exact agreesAt_of_ne hsame
  | inside before after place hplace hview _ ih =>
    refine readsSame_of_agreesAt fun depth other hother => ?_
    by_cases hid : place.id = other.id
    · obtain rfl := eq_of_mem_places hunique hplace hother hid
      exact agreesAt_inside (kind_of_view? hplace hview) hview (ih depth)
    · exact agreesAt_beside hid

end Edits

end Codec

/-! ## Decoding after edits -/

namespace Resolution

/-- Two objects that edits lead between, forth and back, at the top or inside what is read, decode
to the same record or fail with the same error. -/
theorem decode_eq_of_edits (resolution : Resolution) {typeName : String} {left right : Object}
    (hedits : Relation.EqvGen (Edit resolution.codec (.record typeName)) left right) :
    resolution.codec.decode typeName left = resolution.codec.decode typeName right := by
  have hsame : ∀ depth,
      resolution.codec.decodeTo depth typeName left =
        resolution.codec.decodeTo depth typeName right := by
    intro depth
    induction hedits with
    | rel left right hedit => exact Codec.readsSame_of_edit resolution.nodup_ids hedit depth
    | refl object => rfl
    | symm left right _ ih => exact ih.symm
    | trans left middle right _ _ ih ih' => exact ih.trans ih'
  -- Edits may change how deep an object is, so both are read to a depth that is enough for either.
  calc
    resolution.codec.decode typeName left
      = resolution.codec.decodeTo (max left.depth right.depth) typeName left :=
        (Codec.decodeTo_eq_decode _ (Nat.le_max_left _ _) typeName).symm
    _ = resolution.codec.decodeTo (max left.depth right.depth) typeName right := hsame _
    _ = resolution.codec.decode typeName right :=
        Codec.decodeTo_eq_decode _ (Nat.le_max_right _ _) typeName

/-- The label of a node, or the key of an entry. -/
def labelAtom (text : String) : UInt32 × Atom := (1, .scalar (.string text))

def weightAtom : UInt32 × Atom := (5, .scalar (.double ⟨0⟩))

/-- An entry of a map from texts to nodes, with its keys and the values of its node. -/
def pairObject (keys : List String) (node : List (UInt32 × Atom)) : Object :=
  .mk (keys.map labelAtom) [(2, .mk node [])]

/-- A node that holds a node by name. -/
def holderObject (atoms : List (UInt32 × Atom)) (pair : Object) : Object :=
  .mk atoms [(3, pair)]

def plainObject : Object :=
  holderObject [labelAtom "root", weightAtom] (pairObject ["x"] [weightAtom, labelAtom "leaf"])

/-- The same node in another order and among values that are not read, at three depths. -/
def clutteredObject : Object :=
  holderObject [(1, .enumeration 7), weightAtom, labelAtom "early", labelAtom "root"]
    (pairObject ["y", "x"] [weightAtom, labelAtom "leaf", (9, .scalar (.bool true))])

/-- The node that both objects hold. -/
def nodeByName : Record :=
  [(1, .singular (label "root")), (2, .list []),
    (3, .map [(label "x", .record (leaf "leaf" ⟨0⟩))]),
    (5, .singular (.atom (.scalar (.double ⟨0⟩)))), (6, .map [])]

/-- An entry is edited where it stands. -/
theorem edit_holderObject (atoms : List (UInt32 × Atom)) {left right : Object}
    (hedit : Edit ofNodes.codec (.entry (.scalar .string) (.named "shapes.Node")) left right) :
    Edit ofNodes.codec (.record "shapes.Node") (holderObject atoms left)
      (holderObject atoms right) := by
  have hlogs : ∀ pair, .empty ++ (Write.object 3 pair).log ++ .mk atoms [] =
      holderObject atoms pair := fun _ => rfl
  rw [← hlogs, ← hlogs]
  exact .inside .empty (.mk atoms [])
    ⟨3, .object, false, some (.entry (.scalar .string) (.named "shapes.Node"))⟩
    (.tail _ (.tail _ (.head _))) rfl hedit

/-- One edit after the other: another order, a value of another kind, an earlier label, an earlier
key, and in the node of the entry a value under a number no node has. -/
theorem edits_clutteredObject :
    Relation.EqvGen (Edit ofNodes.codec (.record "shapes.Node")) plainObject clutteredObject := by
  let pair := pairObject ["x"] [weightAtom, labelAtom "leaf"]
  let keyed := pairObject ["y", "x"] [weightAtom, labelAtom "leaf"]
  have hswap : Edit ofNodes.codec (.record "shapes.Node")
      (holderObject [labelAtom "root", weightAtom] pair)
      (holderObject [weightAtom, labelAtom "root"] pair) :=
    .swap .empty (.atom 1 (.scalar (.string "root"))) (.atom 5 (.scalar (.double ⟨0⟩)))
      (holderObject [] pair) (by decide)
  have hkind : Edit ofNodes.codec (.record "shapes.Node")
      (holderObject [weightAtom, labelAtom "root"] pair)
      (holderObject [(1, .enumeration 7), weightAtom, labelAtom "root"] pair) :=
    .unread .empty (.atom 1 (.enumeration 7)) (holderObject [weightAtom, labelAtom "root"] pair)
      (by decide +kernel)
  have hearly : Edit ofNodes.codec (.record "shapes.Node")
      (holderObject [(1, .enumeration 7), weightAtom, labelAtom "root"] pair)
      (holderObject [(1, .enumeration 7), weightAtom, labelAtom "early", labelAtom "root"] pair) :=
    .superseded (.mk [(1, .enumeration 7), weightAtom] []) (.atom 1 (.scalar (.string "early")))
      (holderObject [labelAtom "root"] pair) ⟨1, .scalar .string, true, none⟩ (.head _) rfl rfl
      (by decide)
  have hkey : Edit ofNodes.codec (.entry (.scalar .string) (.named "shapes.Node")) pair keyed :=
    .superseded .empty (.atom 1 (.scalar (.string "y"))) pair
      ((Element.scalar .string).place mapKeyId true) (.head _) rfl rfl (by decide)
  have hnode : Edit ofNodes.codec (.record "shapes.Node")
      (.mk [weightAtom, labelAtom "leaf"] [])
      (.mk [weightAtom, labelAtom "leaf", (9, .scalar (.bool true))] []) :=
    .unread (.mk [weightAtom, labelAtom "leaf"] []) (.atom 9 (.scalar (.bool true))) .empty
      (by decide +kernel)
  have hvalue : Edit ofNodes.codec (.entry (.scalar .string) (.named "shapes.Node")) keyed
      (pairObject ["y", "x"] [weightAtom, labelAtom "leaf", (9, .scalar (.bool true))]) :=
    .inside (.mk [labelAtom "y", labelAtom "x"] []) .empty
      ((Element.named "shapes.Node").place mapValueId true) (.tail _ (.head _)) rfl hnode
  exact .trans _ _ _ (.rel _ _ hswap) <| .trans _ _ _ (.rel _ _ hkind) <|
    .trans _ _ _ (.rel _ _ hearly) <| .trans _ _ _ (.rel _ _ (edit_holderObject _ hkey)) <|
      .rel _ _ (edit_holderObject _ hvalue)

theorem decode_eq_of_edits_cluttered :
    Relation.EqvGen (Edit ofNodes.codec (.record "shapes.Node")) plainObject clutteredObject ∧
      ofNodes.codec.decode "shapes.Node" clutteredObject = .ok nodeByName := by
  have hdecode : ofNodes.codec.decode "shapes.Node" plainObject = .ok nodeByName := by
    with_unfolding_all rfl
  refine ⟨edits_clutteredObject, ?_⟩
  exact (ofNodes.decode_eq_of_edits edits_clutteredObject).symm.trans hdecode

end Resolution

end SchemaLoom
