import SchemaLoom.Wire.Object

/-!
# Objects as logs

Everything that is read from an object is read from the values under one field number, in the order
in which they were written.  Objects are joined by writing one log after the other, and a part that
only holds other numbers does not show in what is read.  A log of one value shows it under its
number and kind and nothing anywhere else.
-/

namespace SchemaLoom.Wire.Object

/-! ## Joining logs -/

/-- The values of the second object written after those of the first. -/
def append (left right : Object) : Object :=
  mk (left.atoms ++ right.atoms) (left.objects ++ right.objects)

instance : Append Object := ⟨append⟩

@[simp]
theorem atoms_append (left right : Object) :
    (left ++ right).atoms = left.atoms ++ right.atoms := rfl

@[simp]
theorem objects_append (left right : Object) :
    (left ++ right).objects = left.objects ++ right.objects := rfl

theorem ext_logs {left right : Object} (hatoms : left.atoms = right.atoms)
    (hobjects : left.objects = right.objects) : left = right := by
  cases left
  cases right
  simp only [atoms, objects] at hatoms hobjects
  rw [hatoms, hobjects]

@[simp]
theorem append_empty (object : Object) : object ++ empty = object :=
  ext_logs (List.append_nil _) (List.append_nil _)

@[simp]
theorem empty_append (object : Object) : empty ++ object = object :=
  ext_logs (List.nil_append _) (List.nil_append _)

theorem append_assoc (first second third : Object) :
    first ++ second ++ third = first ++ (second ++ third) :=
  ext_logs (List.append_assoc _ _ _) (List.append_assoc _ _ _)

/-- Objects written one after the other. -/
def concat : List Object → Object
  | [] => empty
  | object :: rest => object ++ concat rest

theorem concat_append (left right : List Object) :
    concat (left ++ right) = concat left ++ concat right := by
  induction left with
  | nil => simp [concat]
  | cons object rest ih => simp [concat, ih, append_assoc]

/-- An object that holds one atom. -/
def ofAtom (field : UInt32) (atom : Atom) : Object := mk [(field, atom)] []

/-- An object that holds one object. -/
def ofObject (field : UInt32) (object : Object) : Object := mk [] [(field, object)]

theorem addScalar_eq (object : Object) (field : UInt32) (value : Scalar) :
    object.addScalar field value = object ++ ofAtom field (.scalar value) :=
  ext_logs rfl (List.append_nil _).symm

theorem addEnumeration_eq (object : Object) (field : UInt32) (value : UInt32) :
    object.addEnumeration field value = object ++ ofAtom field (.enumeration value) :=
  ext_logs rfl (List.append_nil _).symm

theorem addObject_eq (object : Object) (field : UInt32) (value : Object) :
    object.addObject field value = object ++ ofObject field value :=
  ext_logs (List.append_nil _).symm rfl

/-! ## Reading a joined log -/

theorem valuesOf_cons {α : Type} (field : UInt32) (entry : UInt32 × α)
    (values : List (UInt32 × α)) :
    valuesOf field (entry :: values) =
      if entry.1 = field then entry.2 :: valuesOf field values else valuesOf field values := by
  by_cases heq : entry.1 = field
  · simp [valuesOf, heq]
  · have hbeq : (entry.1 == field) = false := by simpa using heq
    rw [if_neg heq, valuesOf, List.filter_cons, hbeq]
    rfl

theorem valuesOf_append {α : Type} (field : UInt32) (left right : List (UInt32 × α)) :
    valuesOf field (left ++ right) = valuesOf field left ++ valuesOf field right := by
  simp [valuesOf]

@[simp]
theorem scalars_append (left right : Object) (kind : ScalarKind) (field : UInt32) :
    (left ++ right).scalars kind field = left.scalars kind field ++ right.scalars kind field := by
  simp [scalars, valuesOf_append]

@[simp]
theorem enumerations_append (left right : Object) (field : UInt32) :
    (left ++ right).enumerations field = left.enumerations field ++ right.enumerations field := by
  simp [enumerations, valuesOf_append]

@[simp]
theorem nested_append (left right : Object) (field : UInt32) :
    (left ++ right).nested field = left.nested field ++ right.nested field := by
  simp [nested, valuesOf_append]

@[simp]
theorem written_append (left right : Object) (kind : Kind) (field : UInt32) :
    (left ++ right).written kind field = left.written kind field + right.written kind field := by
  cases kind <;> simp [written]

@[simp]
theorem scalars_ofAtom (field : UInt32) (value : Scalar) :
    (ofAtom field (.scalar value)).scalars value.kind field = [value] := by
  simp [ofAtom, scalars, valuesOf, atoms, Atom.scalar?, Option.filter]

@[simp]
theorem enumerations_ofAtom (field value : UInt32) :
    (ofAtom field (.enumeration value)).enumerations field = [value] := by
  simp [ofAtom, enumerations, valuesOf, atoms, Atom.enumeration?]

@[simp]
theorem nested_ofObject (field : UInt32) (object : Object) :
    (ofObject field object).nested field = [object] := by
  simp [ofObject, nested, valuesOf, objects]

/-! ## Objects that agree at a field -/

/-- Both objects have the same values under a number, in the same order. -/
def SameAt (field : UInt32) (left right : Object) : Prop :=
  valuesOf field left.atoms = valuesOf field right.atoms ∧
    valuesOf field left.objects = valuesOf field right.objects

namespace SameAt

variable {field : UInt32} {left right : Object}

theorem refl (field : UInt32) (object : Object) : SameAt field object object := ⟨rfl, rfl⟩

theorem scalars_eq (hsame : SameAt field left right) (kind : ScalarKind) :
    left.scalars kind field = right.scalars kind field := by
  rw [scalars, scalars, hsame.1]

theorem enumerations_eq (hsame : SameAt field left right) :
    left.enumerations field = right.enumerations field := by
  rw [enumerations, enumerations, hsame.1]

theorem nested_eq (hsame : SameAt field left right) : left.nested field = right.nested field :=
  hsame.2

theorem count_eq (hsame : SameAt field left right) (kind : Kind) :
    left.count kind field = right.count kind field := by
  cases kind <;>
    simp [count, written, hsame.scalars_eq, hsame.enumerations_eq, hsame.nested_eq]

theorem append {left' right' : Object} (hsame : SameAt field left right)
    (hsame' : SameAt field left' right') : SameAt field (left ++ left') (right ++ right') := by
  constructor
  · simp only [atoms_append, valuesOf_append, hsame.1, hsame'.1]
  · simp only [objects_append, valuesOf_append, hsame.2, hsame'.2]

end SameAt

/-- Every value of the object stands under the number. -/
def Only (field : UInt32) (object : Object) : Prop :=
  (∀ entry ∈ object.atoms, entry.1 = field) ∧ ∀ entry ∈ object.objects, entry.1 = field

theorem only_empty (field : UInt32) : Only field empty := by
  simp [Only, empty, atoms, objects]

theorem only_ofAtom (field : UInt32) (atom : Atom) : Only field (ofAtom field atom) := by
  simp [Only, ofAtom, atoms, objects]

theorem only_ofObject (field : UInt32) (object : Object) : Only field (ofObject field object) := by
  simp [Only, ofObject, atoms, objects]

theorem Only.append {field : UInt32} {left right : Object} (hleft : Only field left)
    (hright : Only field right) : Only field (left ++ right) := by
  constructor
  · exact fun entry hentry => (List.mem_append.mp hentry).elim (hleft.1 entry) (hright.1 entry)
  · exact fun entry hentry => (List.mem_append.mp hentry).elim (hleft.2 entry) (hright.2 entry)

theorem Only.concat {field : UInt32} {parts : List Object}
    (hparts : ∀ part ∈ parts, Only field part) : Only field (concat parts) := by
  induction parts with
  | nil => exact only_empty field
  | cons part parts ih =>
    obtain ⟨hpart, hparts⟩ := List.forall_mem_cons.mp hparts
    exact hpart.append (ih hparts)

theorem valuesOf_eq_nil {α : Type} {field : UInt32} {values : List (UInt32 × α)}
    (hother : ∀ entry ∈ values, entry.1 ≠ field) : valuesOf field values = [] := by
  rw [valuesOf, List.map_eq_nil_iff, List.filter_eq_nil_iff]
  intro entry hentry
  simpa using hother entry hentry

/-- Under another number an object with values of one number is empty. -/
theorem Only.sameAt_empty {field other : UInt32} {object : Object} (honly : Only other object)
    (hne : field ≠ other) : SameAt field object empty := by
  constructor
  · exact valuesOf_eq_nil fun entry hentry heq => hne (heq.symm.trans (honly.1 entry hentry))
  · exact valuesOf_eq_nil fun entry hentry heq => hne (heq.symm.trans (honly.2 entry hentry))

/-! ## Depth -/

theorem depthOf_append (left right : List (UInt32 × Object)) :
    depthOf (left ++ right) = max (depthOf left) (depthOf right) := by
  induction left with
  | nil => simp [depthOf]
  | cons entry rest ih => simp [depthOf, ih, Nat.max_assoc]

theorem depth_eq (object : Object) : object.depth = depthOf object.objects + 1 := by
  cases object
  rfl

theorem depth_append (left right : Object) :
    (left ++ right).depth = max left.depth right.depth := by
  simp only [depth_eq, objects_append, depthOf_append]
  omega

theorem depth_le_depthOf {field : UInt32} {object : Object} {objects : List (UInt32 × Object)}
    (hmem : (field, object) ∈ objects) : object.depth ≤ depthOf objects := by
  induction objects with
  | nil => simp at hmem
  | cons entry rest ih =>
    simp only [depthOf]
    rcases List.mem_cons.mp hmem with rfl | hmem
    · exact Nat.le_max_left _ _
    · exact Nat.le_trans (ih hmem) (Nat.le_max_right _ _)

/-- An object inside another is nested less deeply. -/
theorem depth_lt_of_mem_nested {outer inner : Object} {field : UInt32}
    (hmem : inner ∈ outer.nested field) : inner.depth < outer.depth := by
  obtain ⟨entry, hentry, rfl⟩ := List.mem_map.mp hmem
  have hle := depth_le_depthOf (List.mem_filter.mp hentry).1
  rw [depth_eq outer]
  omega

theorem depth_pos (object : Object) : 0 < object.depth := by
  rw [depth_eq]
  omega

theorem depthOf_le {objects : List (UInt32 × Object)} {bound : Nat}
    (hbound : ∀ entry ∈ objects, entry.2.depth ≤ bound) : depthOf objects ≤ bound := by
  induction objects with
  | nil => exact Nat.zero_le bound
  | cons entry rest ih =>
    obtain ⟨hentry, hrest⟩ := List.forall_mem_cons.mp hbound
    exact Nat.max_le.mpr ⟨hentry, ih hrest⟩

/-- What stands under one number is nested no deeper than the whole. -/
theorem SameAt.depth_le {field : UInt32} {object part : Object} (hsame : SameAt field object part)
    (honly : Only field part) : part.depth ≤ object.depth := by
  have hless : ∀ entry ∈ part.objects, entry.2.depth ≤ depthOf object.objects := by
    intro entry hentry
    have hfilter : entry ∈ part.objects.filter (·.1 == field) :=
      List.mem_filter.mpr ⟨hentry, by simp [honly.2 entry hentry]⟩
    have hmem : entry.2 ∈ part.nested field := List.mem_map_of_mem hfilter
    rw [← hsame.nested_eq] at hmem
    have hlt := depth_lt_of_mem_nested hmem
    rw [depth_eq object] at hlt
    omega
  rw [depth_eq part, depth_eq object]
  exact Nat.succ_le_succ (depthOf_le hless)

end SchemaLoom.Wire.Object

namespace SchemaLoom.Wire

/-! ## Writes -/

/-- One value under a number. -/
inductive Write where
  | atom (id : UInt32) (value : Atom)
  | object (id : UInt32) (value : Object)

namespace Write

def id : Write → UInt32
  | atom id _ => id
  | object id _ => id

def kind : Write → Kind
  | atom _ value => value.kind
  | object _ _ => .object

/-- The object that holds this one value. -/
def log : Write → Object
  | atom id value => .ofAtom id value
  | object id value => .ofObject id value

end Write

namespace Object

/-- The values of one kind under a number, in the order in which they were written. -/
def writesAt (object : Object) (kind : Kind) (id : UInt32) : List Write :=
  match kind with
  | .scalar kind => (object.scalars kind id).map fun value => .atom id (.scalar value)
  | .enumeration => (object.enumerations id).map fun value => .atom id (.enumeration value)
  | .object => (object.nested id).map (.object id)

@[simp]
theorem writesAt_append (left right : Object) (kind : Kind) (id : UInt32) :
    (left ++ right).writesAt kind id = left.writesAt kind id ++ right.writesAt kind id := by
  cases kind <;> simp [writesAt]

theorem length_writesAt (object : Object) (kind : Kind) (id : UInt32) :
    (object.writesAt kind id).length = object.written kind id := by
  cases kind <;> simp [writesAt, written]

theorem writesAt_log_self (write : Write) : write.log.writesAt write.kind write.id = [write] := by
  cases write with
  | atom id value => cases value <;> simp [Write.log, Write.kind, Write.id, Atom.kind, writesAt]
  | object id value => simp [Write.log, Write.kind, Write.id, writesAt]

theorem SameAt.writesAt_eq {id : UInt32} {left right : Object} (hsame : SameAt id left right)
    (kind : Kind) : left.writesAt kind id = right.writesAt kind id := by
  cases kind <;>
    simp only [writesAt, hsame.scalars_eq, hsame.enumerations_eq, hsame.nested_eq]

theorem writesAt_log_of_ne {write : Write} {kind : Kind} {id : UInt32}
    (hne : (write.id, write.kind) ≠ (id, kind)) : write.log.writesAt kind id = [] := by
  by_cases hid : write.id = id
  · subst hid
    have hkind : write.kind ≠ kind := fun hkind => hne (by rw [hkind])
    rcases write with ⟨id, scalar | number⟩ | ⟨id, inner⟩ <;> cases kind <;>
      simp_all [Write.kind, Write.id, Write.log, Atom.kind, Atom.scalar?, Atom.enumeration?, ofAtom,
        ofObject, writesAt, scalars, enumerations, nested, valuesOf, atoms, objects]
  · have honly : Only write.id write.log := by
      cases write with
      | atom id value => exact only_ofAtom id value
      | object id value => exact only_ofObject id value
    rw [(honly.sameAt_empty (Ne.symm hid)).writesAt_eq]
    cases kind <;> rfl

theorem count_eq_zero_iff_getLast? {object : Object} {kind : Kind} {id : UInt32} :
    object.count kind id = 0 ↔ (object.writesAt kind id).getLast? = none := by
  have hgreatest : greatestCount ≠ 0 := by decide
  rw [List.getLast?_eq_none_iff, ← List.length_eq_zero_iff, length_writesAt, count]
  omega

end Object

end SchemaLoom.Wire
