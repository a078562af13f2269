import Mathlib.Tactic.SplitIfs
import SchemaLoom.Proofs.ObjectLog

/-!
# Objects as families of logs

An object keeps the values of all scalar kinds and enumerations in one list and the objects in
another, and every read filters them.  To a user it is one list for each kind and number.  An
addition puts its value at the end of one of these lists and leaves the others as they are,
whichever of the kinds it has; counting, reading the last value, reading by position and telling the
numbers in use are determined by the lists.
-/

namespace SchemaLoom.Wire

/-! ## Additions -/

/-- One addition to an object.  An added object is filled by additions of its own. -/
inductive Addition where
  | scalar (id : UInt32) (value : Scalar)
  | enumeration (id number : UInt32)
  | nested (id : UInt32) (additions : List Addition)

namespace Addition

mutual

def perform : Addition → Object → Object
  | scalar id value, object => object.addScalar id value
  | enumeration id number, object => object.addEnumeration id number
  | nested id additions, object => object.addObject id (performAll additions .empty)

/-- Carry out additions one after the other. -/
def performAll : List Addition → Object → Object
  | [], object => object
  | addition :: rest, object => performAll rest (addition.perform object)

end

end Addition

/-- The object that starts empty and is filled by the additions. -/
def Object.ofAdditions (additions : List Addition) : Object :=
  Addition.performAll additions .empty

/-- The value that is added. -/
def Addition.write : Addition → Write
  | scalar id value => .atom id (.scalar value)
  | enumeration id number => .atom id (.enumeration number)
  | nested id additions => .object id (.ofAdditions additions)

/-- What is read where nothing was written. -/
def Write.zero (id : UInt32) : Kind → Write
  | .scalar kind => .atom id (.scalar (.zero kind))
  | .enumeration => .atom id (.enumeration 0)
  | .object => .object id .empty

/-! ## Families of logs -/

/-- A list of values for each kind and number. -/
abbrev Logs := Kind → UInt32 → List Write

namespace Logs

def empty : Logs := fun _ _ => []

/-- Put a value at the end of the list of its kind and number. -/
def add (logs : Logs) (write : Write) : Logs := fun kind id =>
  if (write.id, write.kind) = (id, kind) then logs kind id ++ [write] else logs kind id

def after (logs : Logs) (additions : List Addition) : Logs :=
  additions.foldl (fun logs addition => logs.add addition.write) logs

end Logs

namespace Object

theorem perform_eq (addition : Addition) (object : Object) :
    addition.perform object = object ++ addition.write.log := by
  cases addition with
  | scalar id value => exact object.addScalar_eq id value
  | enumeration id number => exact object.addEnumeration_eq id number
  | nested id additions => exact object.addObject_eq id (ofAdditions additions)

theorem writesAt_perform (addition : Addition) (object : Object) :
    (addition.perform object).writesAt = Logs.add object.writesAt addition.write := by
  funext kind id
  rw [perform_eq, writesAt_append, Logs.add]
  split_ifs with hown
  · obtain ⟨rfl, rfl⟩ := Prod.mk.inj hown
    rw [writesAt_log_self]
  · rw [writesAt_log_of_ne hown, List.append_nil]

theorem writesAt_performAll (additions : List Addition) (object : Object) :
    (Addition.performAll additions object).writesAt = Logs.after object.writesAt additions := by
  induction additions generalizing object with
  | nil => rfl
  | cons addition rest ih =>
    rw [Addition.performAll, ih, writesAt_perform]
    rfl

theorem writesAt_empty : empty.writesAt = Logs.empty := by
  funext kind id
  cases kind <;> rfl

theorem writesAt_ofAdditions (additions : List Addition) :
    (ofAdditions additions).writesAt = Logs.after .empty additions := by
  rw [ofAdditions, writesAt_performAll, writesAt_empty]

/-! ## Reading single values -/

/-- The value that counts where one of the kind is wanted. -/
def last (object : Object) : Kind → UInt32 → Write
  | .scalar kind, id => .atom id (.scalar (object.lastScalar kind id))
  | .enumeration, id => .atom id (.enumeration (object.lastEnumeration id))
  | .object, id => .object id (object.lastObject id)

/-- The value of the kind at a position. -/
def writeAt (object : Object) : Kind → UInt32 → Nat → Write
  | .scalar kind, id, position => .atom id (.scalar (object.scalarAt kind id position))
  | .enumeration, id, position => .atom id (.enumeration (object.enumerationAt id position))
  | .object, id, position => .object id (object.objectAt id position)

theorem last_eq (object : Object) (kind : Kind) (id : UInt32) :
    object.last kind id = (object.writesAt kind id).getLast?.getD (.zero id kind) := by
  cases kind <;>
    simp [last, writesAt, lastScalar, lastEnumeration, lastObject, Write.zero, List.getLast?_map,
      Option.getD_map]

theorem writeAt_eq (object : Object) (kind : Kind) (id : UInt32) (position : Nat) :
    object.writeAt kind id position =
      (object.writesAt kind id)[position]?.getD (.zero id kind) := by
  cases kind <;>
    simp [writeAt, writesAt, scalarAt, enumerationAt, objectAt, Write.zero, List.getElem?_map,
      Option.getD_map]

/-! ## Numbers in use -/

theorem mem_insertId_iff {id other : UInt32} {ids : List UInt32} :
    other ∈ insertId id ids ↔ other = id ∨ other ∈ ids := by
  induction ids with
  | nil => simp [insertId]
  | cons first rest ih =>
    unfold insertId
    split_ifs with heq hless
    · subst heq
      simp
    · simp
    · simp [ih, or_left_comm]

theorem ascending_insertId (id : UInt32) {ids : List UInt32} (hids : ids.Pairwise (· < ·)) :
    (insertId id ids).Pairwise (· < ·) := by
  induction ids with
  | nil => simp [insertId]
  | cons first rest ih =>
    obtain ⟨hfirst, hrest⟩ := List.pairwise_cons.mp hids
    unfold insertId
    split_ifs with heq hless
    · exact hids
    · refine List.pairwise_cons.mpr ⟨?_, hids⟩
      rw [List.forall_mem_cons]
      exact ⟨hless, fun other hother => UInt32.lt_trans hless (hfirst other hother)⟩
    · have hafter : first < id :=
        UInt32.lt_of_le_of_ne (UInt32.not_lt.mp hless) (Ne.symm heq)
      refine List.pairwise_cons.mpr ⟨fun other hother => ?_, ih hrest⟩
      rcases mem_insertId_iff.mp hother with rfl | hother
      · exact hafter
      · exact hfirst other hother

theorem mem_foldl_insertId_iff {other : UInt32} {ids start : List UInt32} :
    other ∈ ids.foldl (fun ids id => insertId id ids) start ↔ other ∈ start ∨ other ∈ ids := by
  induction ids generalizing start with
  | nil => simp
  | cons id rest ih =>
    rw [List.foldl_cons, ih, mem_insertId_iff, List.mem_cons, or_assoc, or_left_comm]

theorem ascending_foldl_insertId (ids : List UInt32) {start : List UInt32}
    (hstart : start.Pairwise (· < ·)) :
    (ids.foldl (fun ids id => insertId id ids) start).Pairwise (· < ·) := by
  induction ids generalizing start with
  | nil => exact hstart
  | cons id rest ih => exact ih (ascending_insertId id hstart)

theorem ascending_fieldIds (object : Object) : object.fieldIds.Pairwise (· < ·) :=
  ascending_foldl_insertId _ .nil

theorem mem_fieldIds_iff_entries {object : Object} {id : UInt32} :
    id ∈ object.fieldIds ↔ id ∈ object.atoms.map (·.1) ∨ id ∈ object.objects.map (·.1) := by
  rw [fieldIds, mem_foldl_insertId_iff, List.mem_append]
  simp only [List.not_mem_nil, false_or]

/-- A number in use has a value, with some part of the log before it and some after it. -/
theorem exists_write_of_mem_fieldIds {object : Object} {id : UInt32} (hmem : id ∈ object.fieldIds) :
    ∃ before write after, object = before ++ Write.log write ++ after ∧ write.id = id := by
  rcases mem_fieldIds_iff_entries.mp hmem with hatom | hobject
  · obtain ⟨⟨id, value⟩, hentry, rfl⟩ := List.mem_map.mp hatom
    obtain ⟨before, after, hsplit⟩ := List.append_of_mem hentry
    refine ⟨mk before [], .atom id value, mk after object.objects, ext_logs ?_ rfl, rfl⟩
    rw [hsplit]
    exact List.append_cons before (id, value) after
  · obtain ⟨⟨id, value⟩, hentry, rfl⟩ := List.mem_map.mp hobject
    obtain ⟨before, after, hsplit⟩ := List.append_of_mem hentry
    refine ⟨mk object.atoms before, .object id value, mk [] after, ext_logs ?_ ?_, rfl⟩
    · exact ((List.append_nil _).trans (List.append_nil _)).symm
    · rw [hsplit]
      exact List.append_cons before (id, value) after

theorem sameAt_empty_of_not_mem_fieldIds {object : Object} {id : UInt32}
    (hnone : id ∉ object.fieldIds) : SameAt id object empty := by
  rw [mem_fieldIds_iff_entries, not_or] at hnone
  constructor
  · refine valuesOf_eq_nil fun entry hentry heq => hnone.1 ?_
    exact List.mem_map.mpr ⟨entry, hentry, heq⟩
  · refine valuesOf_eq_nil fun entry hentry heq => hnone.2 ?_
    exact List.mem_map.mpr ⟨entry, hentry, heq⟩

/-- The numbers in use are those with a value of some kind. -/
theorem mem_fieldIds_iff {object : Object} {id : UInt32} :
    id ∈ object.fieldIds ↔ ∃ kind, object.writesAt kind id ≠ [] := by
  constructor
  · intro hmem
    obtain ⟨before, write, after, rfl, rfl⟩ := exists_write_of_mem_fieldIds hmem
    refine ⟨write.kind, ?_⟩
    simp [writesAt_log_self]
  · rintro ⟨kind, hne⟩
    refine Decidable.not_not.mp fun hnone => hne ?_
    rw [(sameAt_empty_of_not_mem_fieldIds hnone).writesAt_eq, writesAt_empty]
    rfl

/-! ## Objects filled by additions -/

/-- An object filled by additions is a list for each kind and number, and one more addition puts its
value at the end of its own list and leaves all others as they are.  The count is the length of the
list, up to the greatest one that is told; the last value and the one at a position are those of the
list, or the zero of the kind where it has none; the numbers in use come in ascending order.  What
stands in the lists of objects is filled by additions as well, so this holds at every depth. -/
theorem ofAdditions_refines_logs (additions : List Addition) :
    let object := ofAdditions additions
    let logs := Logs.after .empty additions
    object.writesAt = logs ∧
      (∀ addition : Addition, (addition.perform object).writesAt = logs.add addition.write) ∧
      (∀ kind id, object.count kind id = min (logs kind id).length 0xFFFFFFFF) ∧
      (∀ kind id, object.last kind id = (logs kind id).getLast?.getD (.zero id kind)) ∧
      (∀ kind id position,
        object.writeAt kind id position = (logs kind id)[position]?.getD (.zero id kind)) ∧
      object.fieldIds.Pairwise (· < ·) ∧
      ∀ id, id ∈ object.fieldIds ↔ ∃ kind, logs kind id ≠ [] := by
  intro object logs
  have hlogs : object.writesAt = logs := writesAt_ofAdditions additions
  rw [← hlogs]
  refine ⟨rfl, fun addition => writesAt_perform addition object, fun kind id => ?_, object.last_eq,
    object.writeAt_eq, object.ascending_fieldIds, fun id => mem_fieldIds_iff⟩
  rw [length_writesAt]
  rfl

end Object

end SchemaLoom.Wire
