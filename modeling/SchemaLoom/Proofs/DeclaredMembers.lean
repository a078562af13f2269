import Mathlib.Logic.Function.Basic
import SchemaLoom.Json.Form
import SchemaLoom.Proofs.Outcome

/-!
# Members of a record

The members of a record are read one after the other as they stand in a document, each into its
slot.  What comes out can be said without that order: the document gives nothing but declared
members, none of them twice, and every member has the value that its form reads from what is given
under its name, or its default if nothing is.
-/

namespace SchemaLoom

/-! ## What a document gives -/

theorem lookup_eq_some_iff {α : Type} {members : List (String × α)} {key : String} {value : α}
    (hnodup : (members.map Prod.fst).Nodup) :
    members.lookup key = some value ↔ (key, value) ∈ members := by
  induction members with
  | nil => simp
  | cons member members ih =>
    obtain ⟨first, found⟩ := member
    obtain ⟨hnew, hnodup⟩ := List.nodup_cons.mp hnodup
    rw [List.lookup_cons]
    cases hfirst : key == first with
    | true =>
      obtain rfl : key = first := by simpa using hfirst
      have hnot : (key, value) ∉ members := fun hmem =>
        hnew (List.mem_map.mpr ⟨(key, value), hmem, rfl⟩)
      simp [hnot, eq_comm]
    | false =>
      have hne : key ≠ first := by simpa using hfirst
      simp [ih hnodup, hne]

theorem lookup_eq_none_iff {α : Type} {members : List (String × α)} {key : String} :
    members.lookup key = none ↔ key ∉ members.map Prod.fst := by
  rw [List.lookup_eq_none_iff, List.mem_map]
  simp only [bne_iff_ne]
  exact ⟨fun hall ⟨pair, hpair, hkey⟩ => hall pair hpair hkey.symm,
    fun hnot pair hpair hkey => hnot ⟨pair, hpair, hkey.symm⟩⟩

/-- The order of members with different names does not matter. -/
theorem lookup_eq_of_perm {α : Type} {members members' : List (String × α)}
    (hperm : members.Perm members') (hnodup : (members.map Prod.fst).Nodup) (key : String) :
    members'.lookup key = members.lookup key := by
  have hnodup' := (hperm.map Prod.fst).nodup_iff.mp hnodup
  apply Option.ext
  intro value
  rw [lookup_eq_some_iff hnodup', lookup_eq_some_iff hnodup, hperm.mem_iff]

namespace Json

/-- What a document gives under one of the declared names: the member of that name, or the item at
the place of the name. -/
def declared? (keys : List String) (key : String) : Json → Option Json
  | .object members => members.lookup key
  | .array items => items[keys.idxOf key]?
  | _ => none

/-- A document that gives nothing but what is declared, and nothing twice. -/
def Fits (keys : List String) : Json → Prop
  | .object members => (members.map Prod.fst).Nodup ∧ members.map Prod.fst ⊆ keys
  | .array items => items.length ≤ keys.length
  | _ => False

/-- The second document is the first one with another value in the place of what it gives under the
name. -/
inductive Replaces (keys : List String) (key : String) (value value' : Json) : Json → Json → Prop
  | member (front back : List (String × Json)) :
      Replaces keys key value value' (.object (front ++ (key, value) :: back))
        (.object (front ++ (key, value') :: back))
  | item (front back : List Json) (hkey : keys[front.length]? = some key) :
      Replaces keys key value value' (.array (front ++ value :: back))
        (.array (front ++ value' :: back))

theorem lookup_middle {front back : List (String × Json)} {key : String} {value : Json}
    (hnodup : ((front ++ (key, value) :: back).map Prod.fst).Nodup) :
    (front ++ (key, value) :: back).lookup key = some value :=
  (lookup_eq_some_iff hnodup).mpr (by simp)

theorem notMem_of_nodup_middle {front back : List (String × Json)} {key : String} {value : Json}
    (hnodup : ((front ++ (key, value) :: back).map Prod.fst).Nodup) :
    key ∉ (front ++ back).map Prod.fst := by
  have hperm : (front ++ (key, value) :: back).Perm ((key, value) :: (front ++ back)) :=
    List.perm_middle
  exact (List.nodup_cons.mp ((hperm.map Prod.fst).nodup_iff.mp hnodup)).1

theorem lookup_middle_of_ne {front back : List (String × Json)} {key other : String} (value : Json)
    (hne : other ≠ key) :
    (front ++ (key, value) :: back).lookup other = (front ++ back).lookup other := by
  have hother : (other == key) = false := by simpa using hne
  simp [List.lookup_append, List.lookup_cons, hother]

variable {keys : List String} {key : String} {value value' document document' : Json}

theorem idxOf_of_getElem? (hkeys : keys.Nodup) {place : Nat} (hkey : keys[place]? = some key) :
    keys.idxOf key = place := by
  obtain ⟨hplace, rfl⟩ := List.getElem?_eq_some_iff.mp hkey
  exact hkeys.idxOf_getElem place hplace

theorem Replaces.symm (hreplaces : Replaces keys key value value' document document') :
    Replaces keys key value' value document' document := by
  cases hreplaces with
  | member front back => exact .member front back
  | item front back hkey => exact .item front back hkey

/-- A replacement shows under its own name only. -/
theorem Replaces.declared?_eq (hreplaces : Replaces keys key value value' document document')
    (hkeys : keys.Nodup) (hfits : document.Fits keys) :
    document'.Fits keys ∧ document.declared? keys key = some value ∧
      document'.declared? keys key = some value' ∧
        ∀ other, other ≠ key → other ∈ keys →
          document'.declared? keys other = document.declared? keys other := by
  cases hreplaces with
  | member front back =>
    obtain ⟨hnodup, hsubset⟩ := hfits
    have hsame : (front ++ (key, value') :: back).map Prod.fst =
        (front ++ (key, value) :: back).map Prod.fst := by
      simp
    have hnodup' := hsame ▸ hnodup
    refine ⟨⟨hnodup', hsame ▸ hsubset⟩, lookup_middle hnodup, lookup_middle hnodup', ?_⟩
    intro other hne _
    exact (lookup_middle_of_ne value' hne).trans (lookup_middle_of_ne value hne).symm
  | item front back hkey =>
    have hplace := idxOf_of_getElem? hkeys hkey
    refine ⟨by simpa [Fits] using hfits, by simp [declared?, hplace],
      by simp [declared?, hplace], ?_⟩
    intro other hne hother
    have hapart : front.length ≠ keys.idxOf other := by
      rw [← hplace]
      exact fun heq => hne ((List.idxOf_inj hother).mp heq.symm)
    have hset : front ++ value' :: back = (front ++ value :: back).set front.length value' := by
      simp
    simp only [declared?, hset, List.getElem?_set_ne hapart]

end Json

/-! ## Reading into slots -/

namespace Form

/-- The value a member has, given what stands under its name. -/
def Member.Reads (member : Member) (given : Option Json) (value : member.Value) : Prop :=
  match given with
  | some json => member.form json = .ok value
  | none => member.absent = some value

/-- Every member of the row has its value. -/
def Row.Reads (given : String → Option Json) : (members : List Member) → Row members → Prop
  | [], _ => True
  | member :: members, (value, row) =>
    member.Reads (given member.key) value ∧ Row.Reads given members row

theorem Member.Reads.of_form {member : Member} {json? : Option Json} {json : Json}
    {value : member.Value} (hgiven : json? = some json) (hform : member.form json = .ok value) :
    member.Reads json? value := by
  rw [hgiven]
  exact hform

theorem Member.Reads.form_eq {member : Member} {json? : Option Json} {json : Json}
    {value : member.Value} (hreads : member.Reads json? value) (hgiven : json? = some json) :
    member.form json = .ok value := by
  rw [hgiven] at hreads
  exact hreads

/-- What a slot holds, given what stands under the name of its member. -/
def Member.Fills (member : Member) (given : Option Json) (slot : Option member.Value) : Prop :=
  match given with
  | some json => ∃ value, member.form json = .ok value ∧ slot = some value
  | none => slot = none

def Slots.Reads (given : String → Option Json) : (members : List Member) → Slots members → Prop
  | [], _ => True
  | member :: members, (slot, slots) =>
    member.Fills (given member.key) slot ∧ Slots.Reads given members slots

variable {members : List Member} {given given' : String → Option Json}

theorem Member.Fills.unique {member : Member} {json? : Option Json}
    {slot slot' : Option member.Value} (hfills : member.Fills json? slot)
    (hfills' : member.Fills json? slot') : slot = slot' := by
  cases json? with
  | none => exact hfills.trans hfills'.symm
  | some json =>
    obtain ⟨value, hvalue, rfl⟩ := hfills
    obtain ⟨value', hvalue', rfl⟩ := hfills'
    rw [Except.ok.inj (hvalue.symm.trans hvalue')]

theorem Slots.Reads.unique {slots slots' : Slots members} (hreads : Slots.Reads given members slots)
    (hreads' : Slots.Reads given members slots') : slots = slots' := by
  induction members with
  | nil => rfl
  | cons member members ih =>
    obtain ⟨slot, slots⟩ := slots
    obtain ⟨slot', slots'⟩ := slots'
    rw [hreads.1.unique hreads'.1, ih hreads.2 hreads'.2]

theorem Slots.reads_congr (hsame : ∀ member ∈ members, given member.key = given' member.key)
    (slots : Slots members) :
    Slots.Reads given members slots ↔ Slots.Reads given' members slots := by
  induction members with
  | nil => rfl
  | cons member members ih =>
    obtain ⟨slot, slots⟩ := slots
    obtain ⟨hmember, hmembers⟩ := List.forall_mem_cons.mp hsame
    rw [Slots.Reads, Slots.Reads, hmember, ih hmembers]

theorem Slots.reads_empty (members : List Member) :
    Slots.Reads (fun _ => none) members (Slots.empty members) := by
  induction members with
  | nil => trivial
  | cons member members ih => exact ⟨rfl, ih⟩

/-- Slots can be filled if each form accepts what is given under its name. -/
theorem Slots.exists_reads
    (hgiven : ∀ member ∈ members, ∀ json, given member.key = some json →
      ∃ value, member.form json = .ok value) :
    ∃ slots, Slots.Reads given members slots := by
  induction members with
  | nil => exact ⟨(), trivial⟩
  | cons member members ih =>
    obtain ⟨hmember, hmembers⟩ := List.forall_mem_cons.mp hgiven
    obtain ⟨slots, hslots⟩ := ih hmembers
    cases hjson : given member.key with
    | none => exact ⟨(none, slots), by rw [hjson]; rfl, hslots⟩
    | some json =>
      obtain ⟨value, hvalue⟩ := hmember json hjson
      exact ⟨(some value, slots), by rw [hjson]; exact ⟨value, hvalue, rfl⟩, hslots⟩

theorem Slots.Reads.accepts {slots : Slots members} (hreads : Slots.Reads given members slots) :
    ∀ member ∈ members, ∀ json, given member.key = some json →
      ∃ value, member.form json = .ok value := by
  induction members with
  | nil => simp
  | cons member members ih =>
    obtain ⟨slot, slots⟩ := slots
    rw [List.forall_mem_cons]
    refine ⟨fun json hjson => ?_, ih hreads.2⟩
    have hfills := hreads.1
    rw [hjson] at hfills
    obtain ⟨value, hvalue, -⟩ := hfills
    exact ⟨value, hvalue⟩

theorem Slots.put_self {known : List String} {member : Member} {json : Json}
    {slots : Slots members} :
    Slots.put known member.key json (member :: members) (none, slots) =
      (member.form json).map fun value => (some value, slots) := by
  simp only [Slots.put, if_pos]
  cases member.form json <;> rfl

theorem Slots.put_other {known : List String} {key : String} {json : Json} {member : Member}
    (hkey : member.key ≠ key) {slot : Option member.Value} {slots : Slots members} :
    Slots.put known key json (member :: members) (slot, slots) =
      (Slots.put known key json members slots).map fun slots => (slot, slots) := by
  cases slot <;> simp only [Slots.put, if_neg hkey] <;>
    cases Slots.put known key json members slots <;> rfl

/-- A member is taken if it is declared and new, and its form accepts it. -/
theorem Slots.put_eq_ok_iff {known : List String} {key : String} {json : Json}
    (hkeys : (members.map Member.key).Nodup) {slots slots' : Slots members}
    (hreads : Slots.Reads given members slots) :
    Slots.put known key json members slots = .ok slots' ↔
      key ∈ members.map Member.key ∧ given key = none ∧
        Slots.Reads (Function.update given key (some json)) members slots' := by
  induction members with
  | nil => simp [Slots.put]
  | cons member members ih =>
    obtain ⟨slot, slots⟩ := slots
    obtain ⟨slot', slots'⟩ := slots'
    obtain ⟨hnew, hkeys⟩ := List.nodup_cons.mp hkeys
    obtain ⟨hfills, hreads⟩ := hreads
    by_cases hkey : member.key = key
    · subst hkey
      have hothers : ∀ other ∈ members,
          given other.key = Function.update given member.key (some json) other.key := by
        intro other hother
        rw [Function.update_of_ne]
        exact fun heq => hnew (heq ▸ List.mem_map_of_mem hother)
      have hrest : Slots.Reads (Function.update given member.key (some json)) members slots' ↔
          slots = slots' := by
        rw [← Slots.reads_congr hothers]
        exact ⟨hreads.unique, fun heq => heq ▸ hreads⟩
      rw [Slots.Reads, Function.update_self, hrest]
      cases hgiven : given member.key with
      | some earlier =>
        rw [hgiven] at hfills
        obtain ⟨value, -, rfl⟩ := hfills
        simp [Slots.put]
      | none =>
        rw [hgiven] at hfills
        obtain rfl : slot = none := hfills
        rw [Slots.put_self, Outcome.map_eq_ok_iff]
        simp only [List.map_cons, List.mem_cons_self, Member.Fills, Prod.mk.injEq, true_and,
          ← and_assoc, exists_and_right, @eq_comm _ slot']
    · have hsame : Function.update given key (some json) member.key = given member.key :=
        Function.update_of_ne hkey _ _
      have hslot : member.Fills (given member.key) slot' ↔ slot = slot' :=
        ⟨hfills.unique, fun heq => heq ▸ hfills⟩
      rw [Slots.put_other hkey, Outcome.map_eq_ok_iff, Slots.Reads, hsame, hslot, List.map_cons,
        List.mem_cons, or_iff_right (Ne.symm hkey)]
      simp only [ih hkeys hreads, Prod.mk.injEq]
      constructor
      · rintro ⟨reached, ⟨hmem, hnone, hreached⟩, hslots, rfl⟩
        exact ⟨hmem, hnone, hslots, hreached⟩
      · rintro ⟨hmem, hnone, hslots, hreached⟩
        exact ⟨slots', ⟨hmem, hnone, hreached⟩, hslots, rfl⟩

/-- The members of an object are all taken if they are declared, new and different. -/
theorem Slots.foldlM_put_eq_ok_iff {known : List String} (hkeys : (members.map Member.key).Nodup)
    {pairs : List (String × Json)} {slots slots' : Slots members}
    (hreads : Slots.Reads given members slots) :
    pairs.foldlM (fun slots pair => Slots.put known pair.1 pair.2 members slots) slots =
        .ok slots' ↔
      (pairs.map Prod.fst).Nodup ∧
        (∀ key ∈ pairs.map Prod.fst, key ∈ members.map Member.key ∧ given key = none) ∧
          Slots.Reads (fun key => (given key).or (pairs.lookup key)) members slots' := by
  induction pairs generalizing given slots with
  | nil =>
    rw [List.foldlM_nil, Outcome.pure_eq_ok_iff]
    simp only [List.map_nil, List.nodup_nil, List.not_mem_nil, false_implies, implies_true,
      List.lookup_nil, Option.or_none, true_and]
    exact ⟨fun heq => heq ▸ hreads, hreads.unique⟩
  | cons pair pairs ih =>
    obtain ⟨key, json⟩ := pair
    rw [List.foldlM_cons, Outcome.bind_eq_ok_iff, List.map_cons, List.nodup_cons,
      List.forall_mem_cons]
    -- What the first member adds to what is given already.
    have hgiven : given key = none → ∀ rest : List (String × Json),
        (fun other => (Function.update given key (some json) other).or (rest.lookup other)) =
          fun other => (given other).or (((key, json) :: rest).lookup other) := by
      intro hnone rest
      funext other
      by_cases hother : other = key
      · subst hother
        simp [hnone]
      · have hne : (other == key) = false := by simpa using hother
        simp [hother, List.lookup_cons, hne]
    have hlater : ∀ other, other ≠ key →
        (Function.update given key (some json) other = none ↔ given other = none) := by
      intro other hother
      rw [Function.update_of_ne hother]
    constructor
    · rintro ⟨reached, hput, hrest⟩
      obtain ⟨hmem, hnone, hreached⟩ := (Slots.put_eq_ok_iff hkeys hreads).mp hput
      obtain ⟨hnodup, hdeclared, hlast⟩ := (ih hreached).mp hrest
      rw [hgiven hnone] at hlast
      have hne : ∀ other ∈ pairs.map Prod.fst, other ≠ key := by
        rintro _ hother rfl
        simpa using (hdeclared _ hother).2
      refine ⟨⟨fun hkey => hne key hkey rfl, hnodup⟩, ⟨⟨hmem, hnone⟩, ?_⟩, hlast⟩
      intro other hother
      obtain ⟨hdeclared, hnew⟩ := hdeclared other hother
      exact ⟨hdeclared, (hlater other (hne other hother)).mp hnew⟩
    · rintro ⟨⟨hnew, hnodup⟩, ⟨⟨hmem, hnone⟩, hdeclared⟩, hlast⟩
      rw [← hgiven hnone] at hlast
      have haccepts : ∀ member ∈ members, ∀ found,
          Function.update given key (some json) member.key = some found →
            ∃ value, member.form found = .ok value := by
        intro member hmember found hfound
        apply hlast.accepts member hmember found
        rw [hfound]
        rfl
      obtain ⟨reached, hreached⟩ := Slots.exists_reads haccepts
      refine ⟨reached, (Slots.put_eq_ok_iff hkeys hreads).mpr ⟨hmem, hnone, hreached⟩, ?_⟩
      refine (ih hreached).mpr ⟨hnodup, fun other hother => ?_, hlast⟩
      obtain ⟨hdeclared, hnew'⟩ := hdeclared other hother
      have hne : other ≠ key := fun heq => hnew (heq ▸ hother)
      exact ⟨hdeclared, (hlater other hne).mpr hnew'⟩

theorem Slots.complete_cons {member : Member} {slot : Option member.Value}
    {slots : Slots members} {value : member.Value} {row : Row members} :
    Slots.complete (member :: members) (slot, slots) = .ok (value, row) ↔
      slot.or member.absent = some value ∧ Slots.complete members slots = .ok row := by
  rw [Slots.complete]
  cases slot.or member.absent with
  | none => simp
  | some found => cases Slots.complete members slots <;> simp

theorem Slots.complete_eq_ok_iff {slots : Slots members} (hreads : Slots.Reads given members slots)
    {row : Row members} :
    Slots.complete members slots = .ok row ↔ Row.Reads given members row := by
  induction members with
  | nil => simp [Slots.complete, Row.Reads]
  | cons member members ih =>
    obtain ⟨slot, slots⟩ := slots
    obtain ⟨value, row⟩ := row
    obtain ⟨hfills, hreads⟩ := hreads
    have hvalue : slot.or member.absent = some value ↔ member.Reads (given member.key) value := by
      cases hgiven : given member.key with
      | none =>
        rw [hgiven] at hfills
        obtain rfl : slot = none := hfills
        rw [Option.none_or]
        rfl
      | some json =>
        rw [hgiven] at hfills
        obtain ⟨found, hfound, rfl⟩ := hfills
        simp [Member.Reads, hfound]
    rw [Slots.complete_cons, Row.Reads, hvalue, ih hreads]

/-! ## Reading a row -/

/-- A value for every member stays one where each member can have the same value. -/
theorem Row.Reads.imp
    (himp : ∀ member ∈ members, ∀ value, member.Reads (given member.key) value →
      member.Reads (given' member.key) value)
    {row : Row members} (hreads : Row.Reads given members row) : Row.Reads given' members row := by
  induction members with
  | nil => trivial
  | cons member members ih =>
    obtain ⟨value, row⟩ := row
    obtain ⟨hmember, hmembers⟩ := List.forall_mem_cons.mp himp
    exact ⟨hmember value hreads.1, ih hmembers hreads.2⟩

theorem Row.Reads.accepts {row : Row members} (hreads : Row.Reads given members row) :
    ∀ member ∈ members, ∀ json, given member.key = some json →
      ∃ value, member.form json = .ok value := by
  induction members with
  | nil => simp
  | cons member members ih =>
    obtain ⟨value, row⟩ := row
    rw [List.forall_mem_cons]
    exact ⟨fun json hjson => ⟨value, hreads.1.form_eq hjson⟩, ih hreads.2⟩

theorem Row.reads_congr (hsame : ∀ member ∈ members, given member.key = given' member.key)
    {row : Row members} : Row.Reads given members row ↔ Row.Reads given' members row := by
  constructor
  · exact Row.Reads.imp fun member hmember value hvalue => hsame member hmember ▸ hvalue
  · exact Row.Reads.imp fun member hmember value hvalue => hsame member hmember ▸ hvalue

/-- An array gives the first member its first item, and the others the items that follow. -/
theorem Row.ofItems_cons {short : Nat → Fault} {index : Nat} {items : List Json} {member : Member}
    {value : member.Value} {row : Row members} :
    Row.ofItems short (member :: members) index items = .ok (value, row) ↔
      member.Reads items.head? value ∧
        Row.ofItems short members (index + 1) items.tail = .ok row := by
  cases items with
  | nil =>
    rw [Row.ofItems, List.tail_nil, List.head?_nil, Member.Reads]
    cases member.absent with
    | none => simp
    | some found => cases Row.ofItems short members (index + 1) [] <;> simp
  | cons item items =>
    rw [Row.ofItems, List.tail_cons, List.head?_cons, Member.Reads]
    cases member.form item with
    | error fault => simp
    | ok found => cases Row.ofItems short members (index + 1) items <;> simp

theorem Row.ofItems_eq_ok_iff {short : Nat → Fault} {index : Nat} {items : List Json}
    (hkeys : (members.map Member.key).Nodup) {row : Row members} :
    Row.ofItems short members index items = .ok row ↔
      items.length ≤ members.length ∧
        Row.Reads (fun key => items[(members.map Member.key).idxOf key]?) members row := by
  induction members generalizing index items with
  | nil => cases items <;> simp [Row.ofItems, Row.Reads]
  | cons member members ih =>
    obtain ⟨value, row⟩ := row
    obtain ⟨hnew, hkeys⟩ := List.nodup_cons.mp hkeys
    have hlater :
        Row.Reads (fun key => items.tail[(members.map Member.key).idxOf key]?) members row ↔
          Row.Reads (fun key => items[(member.key :: members.map Member.key).idxOf key]?)
            members row := by
      apply Row.reads_congr
      intro other hother
      have hne : member.key ≠ other.key := fun heq => hnew (heq ▸ List.mem_map_of_mem hother)
      rw [List.idxOf_cons_ne _ hne, List.getElem?_tail]
    rw [Row.ofItems_cons, ih hkeys, hlater, Row.Reads, List.map_cons, List.idxOf_cons_self,
      List.head?_eq_getElem?, List.length_tail, List.length_cons, Nat.sub_le_iff_le_add,
      and_left_comm]

/-- A document is read into a row if it gives nothing but declared members, none twice, and each
member has its value. -/
theorem row_eq_ok_iff {title : String} (hkeys : (members.map Member.key).Nodup) {document : Json}
    {result : Row members} :
    row title members document = .ok result ↔
      document.Fits (members.map Member.key) ∧
        Row.Reads (document.declared? (members.map Member.key)) members result := by
  cases document with
  | object pairs =>
    rw [row, Outcome.bind_eq_ok_iff]
    simp only [Slots.foldlM_put_eq_ok_iff hkeys (Slots.reads_empty members), and_true,
      Option.none_or]
    constructor
    · rintro ⟨slots, ⟨hnodup, hdeclared, hreads⟩, hcomplete⟩
      exact ⟨⟨hnodup, hdeclared⟩, (Slots.complete_eq_ok_iff hreads).mp hcomplete⟩
    · rintro ⟨⟨hnodup, hdeclared⟩, hrow⟩
      obtain ⟨slots, hreads⟩ : ∃ slots, Slots.Reads (fun key => pairs.lookup key) members slots :=
        Slots.exists_reads hrow.accepts
      exact ⟨slots, ⟨hnodup, hdeclared, hreads⟩, (Slots.complete_eq_ok_iff hreads).mpr hrow⟩
  | array items =>
    rw [row, Row.ofItems_eq_ok_iff hkeys, Json.Fits, List.length_map]
    rfl
  | _ => simp [row, Json.Fits]

theorem checked_eq_ok_iff {α : Type} {title : String} {build : Row members → Except Fault α}
    (hkeys : (members.map Member.key).Nodup) {document : Json} {value : α} :
    checked title members build document = .ok value ↔
      ∃ result, document.Fits (members.map Member.key) ∧
        Row.Reads (document.declared? (members.map Member.key)) members result ∧
          build result = .ok value := by
  rw [checked]
  refine Outcome.bind_eq_ok_iff.trans (exists_congr fun result => ?_)
  rw [row_eq_ok_iff hkeys, and_assoc]

theorem record_eq_checked {α : Type} (title : String) (members : List Member)
    (build : Row members → α) :
    record title members build = checked title members fun row => .ok (build row) := by
  funext json
  rw [record, checked]
  cases row title members json <;> rfl

/-- A record is read member by member. -/
theorem exists_row_of_record {α : Type} {title : String} {build : Row members → α}
    (hkeys : (members.map Member.key).Nodup) {document : Json} {value : α}
    (hrecord : record title members build document = .ok value) :
    ∃ result, Row.Reads (document.declared? (members.map Member.key)) members result ∧
      build result = value := by
  rw [record_eq_checked, checked_eq_ok_iff hkeys] at hrecord
  obtain ⟨result, -, hreads, hbuild⟩ := hrecord
  exact ⟨result, hreads, Except.ok.inj hbuild⟩

end Form

end SchemaLoom
