import Mathlib.Data.Finset.Card
import SchemaLoom.Proofs.KnownNames
import SchemaLoom.Proofs.PartialUpdate
import SchemaLoom.Proofs.RoundTrip

/-!
# Defaults

The default of a type holds the defaults of the types that its singular fields name, and so on
inwards, with nothing to remember where it came from.  A field that is no collection never leads
back to its type, so every step leaves fewer types within reach.  Hence every type has a default; it
conforms to the type, comes back from the wire unchanged and is what cleared fields are reset to.
-/

namespace SchemaLoom

open Wire

/-! ## Fewer types within reach -/

section Reach

variable {types : List ResolvedType} {name source target : String}

open Classical in
/-- The names of types that a name leads to through fields of any shape, its own included. -/
noncomputable def namesWithin (types : List ResolvedType) (name : String) : Finset String :=
  (types.map (·.qualified)).toFinset.filter (Relation.ReflTransGen (Edge types) name)

theorem mem_namesWithin_iff {other : String} :
    other ∈ namesWithin types name ↔
      (∃ type ∈ types, type.qualified = other) ∧
        Relation.ReflTransGen (Edge types) name other := by
  simp [namesWithin]

theorem card_namesWithin_le (types : List ResolvedType) (name : String) :
    (namesWithin types name).card ≤ types.length := by
  classical
  calc (namesWithin types name).card
      ≤ (types.map (·.qualified)).toFinset.card := Finset.card_filter_le _ _
    _ ≤ (types.map (·.qualified)).length := List.toFinset_card_le _
    _ = types.length := List.length_map _

/-- An edge without a way back leads to where fewer types are within reach. -/
theorem card_namesWithin_lt (hedge : Edge types source target)
    (hback : ¬Relation.ReflTransGen (Edge types) target source) :
    (namesWithin types target).card < (namesWithin types source).card := by
  apply Finset.card_lt_card
  rw [Finset.ssubset_iff_of_subset]
  · obtain ⟨field, type, htype, hname, -⟩ := hedge
    refine ⟨source, mem_namesWithin_iff.mpr ⟨⟨type, htype, hname⟩, .refl⟩, fun hmem => ?_⟩
    exact hback (mem_namesWithin_iff.mp hmem).2
  · intro other hother
    obtain ⟨hknown, hpath⟩ := mem_namesWithin_iff.mp hother
    exact mem_namesWithin_iff.mpr ⟨hknown, .head hedge hpath⟩

theorem Index.not_path_of_directEdge {index : Index} {config : GenerateConfig}
    {trees : List Resolved} (hresolve : (index.resolveAll config []).2 = .ok trees)
    (hedge : DirectEdge (Resolved.allOf trees) source target) :
    ¬Relation.ReflTransGen (Edge (Resolved.allOf trees)) target source := by
  intro hback
  obtain ⟨field, hfield, hdirect⟩ := hedge
  obtain ⟨-, hcollection, -⟩ := recursive_of_cycle hresolve hfield hback
  rw [hdirect] at hcollection
  cases hcollection

end Reach

/-! ## One level of a default -/

namespace Codec

variable {codec : Codec} {inner outer : String → Except CodecError Record}

theorem defaultTo_succ_eq_ok_iff {depth : Nat} {typeName : String} {record : Record} :
    codec.defaultTo (depth + 1) typeName = .ok record ↔
      ∃ type, codec.type typeName = .ok type ∧ ∃ values : List (UInt32 × FieldValue),
        List.Forall₂
          (fun field entry => entry.1 = field.id ∧
            codec.emptyField (codec.defaultTo depth) field.shape = .ok entry.2)
          type.fields values ∧ Record.ofList values = record := by
  simp only [defaultTo, Outcome.bind_eq_ok_iff, mapM_entry_eq_ok_iff, Outcome.pure_eq_ok_iff]

/-- What a field holds by default depends on the defaults of named types only as far as they are
defined. -/
theorem emptyField_mono
    (hmono : ∀ name record, inner name = .ok record → outer name = .ok record)
    {shape : Shape Element} {value : FieldValue}
    (hvalue : codec.emptyField inner shape = .ok value) :
    codec.emptyField outer shape = .ok value := by
  cases shape with
  | singular element =>
    cases element with
    | scalar kind => exact hvalue
    | enumeration name => exact hvalue
    | named name =>
      obtain ⟨only, honly, rfl⟩ := Outcome.map_eq_ok_iff.mp hvalue
      rw [emptyElement] at honly
      obtain ⟨record, hrecord, rfl⟩ := Outcome.map_eq_ok_iff.mp honly
      rw [emptyField, emptyElement, hmono name record hrecord]
      rfl
  | option element => exact hvalue
  | list element => exact hvalue
  | map key value => exact hvalue

/-- A default that was found to some depth is found to any greater one. -/
theorem defaultTo_add (depth more : Nat) (typeName : String) (record : Record)
    (hdefault : codec.defaultTo depth typeName = .ok record) :
    codec.defaultTo (depth + more) typeName = .ok record := by
  induction depth generalizing typeName record with
  | zero => cases hdefault
  | succ depth ih =>
    obtain ⟨type, htype, values, hvalues, hrecord⟩ := defaultTo_succ_eq_ok_iff.mp hdefault
    rw [Nat.add_right_comm]
    refine defaultTo_succ_eq_ok_iff.mpr ⟨type, htype, values, ?_, hrecord⟩
    exact hvalues.imp fun field entry hentry => ⟨hentry.1, emptyField_mono ih hentry.2⟩

/-- The value of every field is the one it is reset to when it is cleared. -/
theorem get?_defaultRecord (hunique : codec.UniqueIds) {typeName : String} {type : ResolvedType}
    (htype : codec.type typeName = .ok type) {record : Record}
    (hdefault : codec.defaultRecord typeName = .ok record) {field : ResolvedField}
    (hfield : field ∈ type.fields) :
    ∃ value, codec.emptyField codec.defaultRecord field.shape = .ok value ∧
      record.get? field.id = some value := by
  obtain ⟨other, hother, values, hvalues, rfl⟩ := defaultTo_succ_eq_ok_iff.mp hdefault
  obtain rfl : type = other := Except.ok.inj (htype.symm.trans hother)
  have hnodup := nodup_map_fst hunique htype (hvalues.imp fun _ _ hentry => hentry.1)
  obtain ⟨⟨id, value⟩, hentry, hid, hvalue⟩ := Outcome.exists_right_of_mem hvalues hfield
  obtain rfl : id = field.id := hid
  refine ⟨value, emptyField_mono (fun name record => defaultTo_add _ 1 name record) hvalue, ?_⟩
  rw [Record.get?_ofList hnodup]
  exact Record.get?_eq_some_of_nodup hnodup hentry

theorem exists_emptyField_of_nested (henums : ∀ decl ∈ codec.enums, decl.values ≠ [])
    {shape : Shape Element} (hknows : ∀ element ∈ shape.elements, codec.Knows element)
    (hinner : ∀ name, shape = .singular (.named name) → ∃ record, inner name = .ok record) :
    ∃ value, codec.emptyField inner shape = .ok value := by
  cases shape with
  | singular element =>
    cases element with
    | scalar kind => exact ⟨_, rfl⟩
    | enumeration name =>
      obtain ⟨decl, hdecl⟩ :=
        Option.isSome_iff_exists.mp (hknows (.enumeration name) List.mem_cons_self)
      obtain ⟨value, hvalue⟩ :=
        ResolvedEnum.exists_default? (henums decl (List.mem_of_find?_eq_some hdecl))
      have hdefault : (codec.enum? name).bind ResolvedEnum.default? = some value := by
        rw [hdecl]
        exact hvalue
      exact ⟨.singular (.atom (.enumeration value.value)), by
        rw [emptyField, emptyElement, hdefault]
        rfl⟩
    | named name =>
      obtain ⟨record, hrecord⟩ := hinner name rfl
      exact ⟨.singular (.record record), by
        rw [emptyField, emptyElement, hrecord]
        rfl⟩
  | option element => exact ⟨_, rfl⟩
  | list element => exact ⟨_, rfl⟩
  | map key value => exact ⟨_, rfl⟩

/-! ## Defaults conform -/

/-- The default of an enumeration is a declared value. -/
theorem declares_of_default? {name : String} {value : EnumValue}
    (hvalue : (codec.enum? name).bind ResolvedEnum.default? = some value) :
    codec.declares name value.value := by
  obtain ⟨decl, hdecl, hdefault⟩ := Option.bind_eq_some_iff.mp hvalue
  have hmem := ResolvedEnum.mem_of_default? hdefault
  rw [declares, hdecl]
  exact List.any_eq_true.mpr ⟨value, hmem, beq_self_eq_true _⟩

theorem obeys_emptyElement
    (hinner : ∀ name record, inner name = .ok record →
      record.obeys codec (.conforming codec) name)
    {element : Element} {value : Value} (hvalue : codec.emptyElement inner element = .ok value) :
    value.obeys codec (.conforming codec) element := by
  cases element with
  | scalar kind =>
    cases hvalue
    exact obeys_scalar kind (Scalar.kind_zero kind)
  | enumeration name =>
    rw [emptyElement] at hvalue
    split at hvalue
    · next declared hdeclared =>
      cases hvalue
      apply Rules.conforming_element rfl
      rintro _ _ ⟨⟩ ⟨⟩
      exact declares_of_default? hdeclared
    · cases hvalue
  | named name =>
    rw [emptyElement] at hvalue
    obtain ⟨record, hrecord, rfl⟩ := Outcome.map_eq_ok_iff.mp hvalue
    have helement : (Rules.conforming codec).element (.named name) (.record record) :=
      Rules.conforming_element rfl (by simp)
    exact Value.obeys_record_iff.mpr ⟨helement, hinner name record hrecord⟩

theorem obeys_emptyField
    (hinner : ∀ name record, inner name = .ok record →
      record.obeys codec (.conforming codec) name)
    {shape : Shape Element} {value : FieldValue}
    (hvalue : codec.emptyField inner shape = .ok value) :
    value.obeys codec (.conforming codec) shape := by
  rw [FieldValue.obeys_iff]
  cases shape with
  | singular element =>
    obtain ⟨only, honly, rfl⟩ := Outcome.map_eq_ok_iff.mp hvalue
    refine ⟨Rules.conforming_field rfl one_le_greatestCount (by simp), fun part hpart => ?_⟩
    rw [List.mem_singleton.mp hpart]
    exact obeys_emptyElement hinner honly
  | option element =>
    cases hvalue
    exact ⟨Rules.conforming_field rfl (Nat.zero_le _) (by simp), by simp [FieldValue.parts]⟩
  | list element =>
    cases hvalue
    exact ⟨Rules.conforming_field rfl (Nat.zero_le _) (by simp), by simp [FieldValue.parts]⟩
  | map key value =>
    cases hvalue
    exact ⟨Rules.conforming_field rfl (Nat.zero_le _) (by simp [Keyed.Apart]),
      by simp [FieldValue.parts]⟩

theorem obeys_defaultTo (hunique : codec.UniqueIds) (depth : Nat) (typeName : String)
    (record : Record) (hdefault : codec.defaultTo depth typeName = .ok record) :
    record.obeys codec (.conforming codec) typeName := by
  induction depth generalizing typeName record with
  | zero => cases hdefault
  | succ depth ih =>
    obtain ⟨type, htype, values, hvalues, rfl⟩ := defaultTo_succ_eq_ok_iff.mp hdefault
    refine obeys_ofList hunique htype (hvalues.imp fun field entry hentry => ⟨hentry.1, ?_⟩)
    exact obeys_emptyField ih hentry.2

/-- A record that conforms to its type can be written and comes back as it was. -/
theorem exists_encode_decode (hunique : codec.UniqueIds) {typeName : String} {record : Record}
    (hconforming : record.obeys codec (.conforming codec) typeName) :
    ∃ object, codec.encode typeName record .empty = (object, .ok ()) ∧
      codec.decode typeName object = .ok record := by
  have hwritable := Record.obeys_of_implies (Rules.conforming_implies_writable _) hconforming
  have hstable := Record.obeys_of_implies (Rules.conforming_implies_stable _) hconforming
  have hreadable := Record.obeys_of_implies (Rules.stable_implies_readable _) hstable
  have hnormal := Record.obeys_of_implies (Rules.stable_implies_normal _) hstable
  obtain ⟨object, hencode⟩ := exists_encodeTo hunique (Nat.lt_succ_self _) hwritable
  refine ⟨object, hencode, ?_⟩
  rw [decode_of_encode hunique hencode hreadable, Record.normalize_eq_self hnormal]

/-! ## Cleared fields -/

section Cleared

variable {typeName : String} {type : ResolvedType} {record : Record}

theorem updatedField_of_cleared (hunique : codec.UniqueIds) (htype : codec.type typeName = .ok type)
    (hdefault : codec.defaultRecord typeName = .ok record) {update : Update}
    {field : ResolvedField} (hfield : field ∈ type.fields)
    (hunwritten : update.fields.count field.wire field.id = 0)
    (hcleared : update.isCleared field.id) :
    codec.updatedField type.qualified update field = .ok (record.get? field.id) := by
  obtain ⟨value, hvalue, hget⟩ := get?_defaultRecord hunique htype hdefault hfield
  rw [updatedField, if_pos hunwritten, if_pos hcleared, hvalue, hget]
  rfl

/-- Only a field that was written can keep a merge from succeeding. -/
theorem exists_merge_iff (hunique : codec.UniqueIds) (htype : codec.type typeName = .ok type)
    (hdefault : codec.defaultRecord typeName = .ok record) (base : Record) (update : Update) :
    (∃ merged, codec.merge typeName base update = .ok merged) ↔
      ∀ field ∈ type.fields, update.fields.count field.wire field.id ≠ 0 → ∃ value,
        codec.decodeField (codec.decodeTo update.fields.depth) type.qualified field
          update.fields = .ok value := by
  constructor
  · rintro ⟨merged, hmerge⟩ field hfield hwritten
    obtain ⟨change, hchange⟩ := exists_updatedField_of_merge htype hmerge field hfield
    rw [updatedField, if_neg hwritten] at hchange
    obtain ⟨value, hvalue, -⟩ := Outcome.map_eq_ok_iff.mp hchange
    exact ⟨value, hvalue⟩
  · intro hwritten
    have hupdated : ∀ field ∈ type.fields, ∃ change,
        codec.updatedField type.qualified update field = .ok change := by
      intro field hfield
      by_cases hcount : update.fields.count field.wire field.id = 0
      · by_cases hcleared : update.isCleared field.id
        · exact ⟨_, updatedField_of_cleared hunique htype hdefault hfield hcount hcleared⟩
        · exact ⟨none, by rw [updatedField, if_pos hcount, if_neg hcleared]⟩
      · obtain ⟨value, hvalue⟩ := hwritten field hfield hcount
        exact ⟨some value, by rw [updatedField, if_neg hcount, hvalue]; rfl⟩
    choose! change hchange using hupdated
    exact ⟨_, merge_eq_ok htype hchange base⟩

theorem get?_merge_of_cleared (hunique : codec.UniqueIds) (htype : codec.type typeName = .ok type)
    (hdefault : codec.defaultRecord typeName = .ok record) {base merged : Record}
    {update : Update} (hmerge : codec.merge typeName base update = .ok merged)
    {field : ResolvedField} (hfield : field ∈ type.fields)
    (hunwritten : update.fields.count field.wire field.id = 0)
    (hcleared : update.isCleared field.id) : merged.get? field.id = record.get? field.id := by
  have hupdated := exists_updatedField_of_merge htype hmerge
  choose! change hchange using hupdated
  obtain rfl : type.fields.foldl (applyChange change) base = merged :=
    Except.ok.inj ((merge_eq_ok htype hchange base).symm.trans hmerge)
  have hnodup := hunique type (mem_types_of_type_eq_ok htype)
  have hreset : change field = record.get? field.id := Except.ok.inj
    ((hchange field hfield).symm.trans
      (updatedField_of_cleared hunique htype hdefault hfield hunwritten hcleared))
  obtain ⟨value, -, hget⟩ := get?_defaultRecord hunique htype hdefault hfield
  rw [get?_foldl_applyChange change hnodup, find?_id_of_mem hnodup hfield]
  simp [hreset, hget]

end Cleared

end Codec

/-! ## Defaults of resolved types -/

namespace Resolution

variable (resolution : Resolution)

theorem values_ne_nil : ∀ decl ∈ resolution.codec.enums, decl.values ≠ [] := by
  have hresolved : ∀ {name : String} {decl : ResolvedEnum},
      resolution.index.resolveEnum name = .ok decl → decl.values ≠ [] := by
    intro name decl hresolve
    obtain ⟨_, -, -, -, hvalues, hnonempty⟩ := Index.values_of_resolveEnum hresolve
    exact hvalues ▸ hnonempty
  have hnested : ∀ type ∈ resolution.codec.types, ∀ decl ∈ type.nestedEnums, decl.values ≠ [] := by
    refine Index.forall_mem_allOf_of_resolveAll (fun memo name tree hassemble => ?_)
      resolution.resolveAll_eq
    intro decl hdecl
    obtain ⟨_, _, hassembled⟩ := Index.exists_assembled hassemble
    obtain ⟨_, -, hresolve⟩ := Outcome.exists_left_of_mem hassembled.nestedEnums hdecl
    exact hresolved hresolve
  intro decl hdecl
  rcases List.mem_append.mp hdecl with htop | hinside
  · obtain ⟨_, -, hresolve⟩ := Outcome.exists_left_of_mem
      (Outcome.mapM_eq_ok_iff.mp resolution.resolveEnums_eq) htop
    exact hresolved hresolve
  · obtain ⟨type, htype, hmem⟩ := List.mem_flatMap.mp hinside
    exact hnested type htype decl hmem

/-- As many levels as there are types within reach are enough. -/
theorem exists_defaultTo {depth : Nat} {typeName : String} {type : ResolvedType}
    (htype : resolution.codec.type typeName = .ok type)
    (hdepth : (namesWithin resolution.codec.types typeName).card ≤ depth) :
    ∃ record, resolution.codec.defaultTo depth typeName = .ok record := by
  have hmem := Codec.mem_types_of_type_eq_ok htype
  have hqualified := Codec.qualified_of_type_eq_ok htype
  induction depth generalizing typeName type with
  | zero =>
    have hself : typeName ∈ namesWithin resolution.codec.types typeName :=
      mem_namesWithin_iff.mpr ⟨⟨type, hmem, hqualified⟩, .refl⟩
    have hpos := Finset.card_pos.mpr ⟨typeName, hself⟩
    omega
  | succ depth ih =>
    have hfields : ∀ field ∈ type.fields, ∃ value,
        resolution.codec.emptyField (resolution.codec.defaultTo depth) field.shape = .ok value := by
      intro field hfield
      have hknows := resolution.closed type hmem field hfield
      refine Codec.exists_emptyField_of_nested resolution.values_ne_nil hknows fun name hshape => ?_
      have hnamed : .named name ∈ field.shape.elements := by simp [hshape, Shape.elements]
      have hedge : DirectEdge resolution.codec.types typeName name :=
        ⟨field, ⟨type, hmem, hqualified, hfield, hnamed⟩, by rw [hshape]; rfl⟩
      have hfewer := card_namesWithin_lt hedge.edge
        (Index.not_path_of_directEdge resolution.resolveAll_eq hedge)
      obtain ⟨inner, hinner⟩ := hknows (.named name) hnamed
      exact ih hinner (by omega) (Codec.mem_types_of_type_eq_ok hinner)
        (Codec.qualified_of_type_eq_ok hinner)
    have hvalues : ∃ values : List (UInt32 × FieldValue), List.Forall₂
        (fun field entry => entry.1 = field.id ∧
          resolution.codec.emptyField (resolution.codec.defaultTo depth) field.shape =
            .ok entry.2) type.fields values := by
      refine Outcome.exists_forall₂ fun field hfield => ?_
      obtain ⟨value, hvalue⟩ := hfields field hfield
      exact ⟨(field.id, value), rfl, hvalue⟩
    obtain ⟨values, hvalues⟩ := hvalues
    exact ⟨_, Codec.defaultTo_succ_eq_ok_iff.mpr ⟨type, htype, values, hvalues, rfl⟩⟩

/-- Every type and every component has a default, to whatever depth beyond the number of types one
looks.  It has exactly the numbers of its type and comes back from the wire as it was.  A merge fails
only for a field that was written and cannot be read; a field that was cleared takes its value in the
default. -/
theorem exists_defaultRecord {typeName : String}
    (hname : typeName ∈ resolution.index.resolvableNames) :
    ∃ type record object, resolution.codec.type typeName = .ok type ∧
      resolution.codec.defaultRecord typeName = .ok record ∧
      (∀ depth, resolution.codec.types.length ≤ depth →
        resolution.codec.defaultTo depth typeName = .ok record) ∧
      (record.map (·.1)).Perm (type.fields.map (·.id)) ∧
      resolution.codec.encode typeName record .empty = (object, .ok ()) ∧
      resolution.codec.decode typeName object = .ok record ∧
      ∀ base update,
        ((∃ merged, resolution.codec.merge typeName base update = .ok merged) ↔
          ∀ field ∈ type.fields, update.fields.count field.wire field.id ≠ 0 → ∃ value,
            resolution.codec.decodeField (resolution.codec.decodeTo update.fields.depth)
              type.qualified field update.fields = .ok value) ∧
        ∀ merged, resolution.codec.merge typeName base update = .ok merged →
          ∀ field ∈ type.fields, update.fields.count field.wire field.id = 0 →
            update.isCleared field.id → merged.get? field.id = record.get? field.id := by
  have hunique : resolution.codec.UniqueIds := resolution.nodup_ids
  obtain ⟨type, htype⟩ := resolution.exists_type hname
  obtain ⟨record, hrecord⟩ := resolution.exists_defaultTo htype (card_namesWithin_le _ _)
  have hdepth : ∀ depth, resolution.codec.types.length ≤ depth →
      resolution.codec.defaultTo depth typeName = .ok record := by
    intro depth hle
    rw [← Nat.add_sub_cancel' hle]
    exact Codec.defaultTo_add _ _ typeName record hrecord
  have hdefault : resolution.codec.defaultRecord typeName = .ok record := hdepth _ (Nat.le_succ _)
  have hconforming := Codec.obeys_defaultTo hunique _ typeName record hrecord
  obtain ⟨object, hencode, hdecode⟩ := Codec.exists_encode_decode hunique hconforming
  refine ⟨type, record, object, htype, hdefault, hdepth,
    Codec.map_fst_perm hunique htype hconforming, hencode, hdecode, fun base update => ⟨?_, ?_⟩⟩
  · exact Codec.exists_merge_iff hunique htype hdefault base update
  · intro merged hmerge field hfield
    exact Codec.get?_merge_of_cleared hunique htype hdefault hmerge hfield

/-- Ships with a hull of some wood; a ship may carry boats, and a hull would have a twin. -/
def shipyard : Index where
  entries :=
    [⟨⟨"dock.schema", "dock"⟩, .type (.declare "dock.Hull"
        [.singular "wood" 1 (.enumeration "dock.Wood"),
          .singular "twin" 2 (.named "dock.Hull")])⟩,
      ⟨⟨"dock.schema", "dock"⟩, .type (.declare "dock.Ship"
        [.singular "hull" 4 (.named "dock.Hull"), .list "boats" 2 (.named "dock.Ship")])⟩,
      ⟨⟨"dock.schema", "dock"⟩, .enumeration (.declare "dock.Wood" [("OAK", 3), ("PINE", 7)])⟩]
  ascending := by decide

def ofShips : Resolution where
  index := shipyard
  config := { recursion := .keepCollections }
  trees := (shipyard.resolveAll { recursion := .keepCollections } []).2.toOption.getD []
  enums := shipyard.resolveEnums.toOption.getD []
  resolveAll_eq := rfl
  resolveEnums_eq := rfl

/-- A ship without boats and with a hull of the given wood. -/
def shipOf (wood : UInt32) : Record :=
  [(2, .list []), (4, .singular (.record [(1, .singular (.atom (.enumeration wood)))]))]

theorem exists_defaultRecord_ships :
    "dock.Ship" ∈ ofShips.index.resolvableNames ∧
      ofShips.codec.defaultTo 1000 "dock.Ship" = .ok (shipOf 3) ∧
      (∃ object, ofShips.codec.encode "dock.Ship" (shipOf 3) .empty = (object, .ok ()) ∧
        ofShips.codec.decode "dock.Ship" object = .ok (shipOf 3)) ∧
      ∃ merged, ofShips.codec.merge "dock.Ship" (shipOf 7) (Update.empty.clear 4) = .ok merged ∧
        merged.get? 4 = (shipOf 3).get? 4 := by
  have hname : "dock.Ship" ∈ ofShips.index.resolvableNames := by decide
  have hfresh : ofShips.codec.defaultRecord "dock.Ship" = .ok (shipOf 3) := by
    with_unfolding_all rfl
  obtain ⟨type, record, object, htype, hdefault, hdepth, -, hencode, hdecode, hmerge⟩ :=
    ofShips.exists_defaultRecord hname
  obtain rfl : record = shipOf 3 := Except.ok.inj (hdefault.symm.trans hfresh)
  obtain ⟨hmerges, hcleared⟩ := hmerge (shipOf 7) (Update.empty.clear 4)
  have hunwritten : ∀ kind id, (Update.empty.clear 4).fields.count kind id = 0 := by
    intro kind id
    cases kind <;> rfl
  obtain ⟨merged, hmerged⟩ :=
    hmerges.mpr fun field _ hwritten => absurd (hunwritten field.wire field.id) hwritten
  have hhull : ∃ field ∈ type.fields, field.id = 4 := by
    obtain rfl : _ = type := Except.ok.inj htype
    exact ⟨_, .head _, rfl⟩
  obtain ⟨hull, hhull, hid⟩ := hhull
  refine ⟨hname, hdepth 1000 (by decide), ⟨object, hencode, hdecode⟩, merged, hmerged, ?_⟩
  rw [← hid]
  exact hcleared merged hmerged hull hhull (hunwritten _ _) (by rw [hid]; rfl)

end Resolution

end SchemaLoom
