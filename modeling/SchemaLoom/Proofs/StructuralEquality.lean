import Mathlib.Data.List.Forall2
import Mathlib.Data.List.Nodup
import Mathlib.Data.List.Sort
import SchemaLoom.Proofs.Outcome
import SchemaLoom.Proofs.RecordRules
import SchemaLoom.Record.Alike

/-!
# Structural equality is an equivalence

Maps are compared by length and by containment in one direction only.  Where no key of a map is
alike to another one, that is enough: the entries of one map can be matched with those of the other,
and then equality of records is an equivalence.  A record is proper if this holds of all its maps,
at every depth.
-/

namespace SchemaLoom

open Wire

/-! ## Numbers -/

namespace Number.Layout

variable {layout : Layout} {left right : Nat}

/-- Canonical bits are equal for numbers that are equal arithmetically, and for two NaNs. -/
theorem canonical_eq_iff (hquiet : layout.isNaN layout.quietNaN) :
    layout.canonical left = layout.canonical right ↔
      layout.arithmeticEq left right ∨ layout.isNaN left ∧ layout.isNaN right := by
  have hzero : layout.isZero 0 := by simp [isZero, magnitude]
  have hnotZero : layout.isZero layout.quietNaN = false := by
    simp only [isNaN, decide_eq_true_eq] at hquiet
    simp only [isZero, beq_eq_false_iff_ne]
    omega
  have hnotNaN : layout.isNaN 0 = false := by simp [isNaN, magnitude]
  unfold canonical arithmeticEq
  cases hleft : layout.isNaN left <;> cases hright : layout.isNaN right <;>
    cases hleftZero : layout.isZero left <;> cases hrightZero : layout.isZero right <;> grind

end Number.Layout

/-! ## Scalars and atoms -/

/-- Scalars are alike if they are equal, or numbers with the same canonical bits. -/
theorem Wire.Scalar.alike_iff {left right : Scalar} :
    left.alike right ↔
      left = right ∨
      (∃ first second, left = .double first ∧ right = .double second ∧
        first.canonical = second.canonical) ∨
      ∃ first second, left = .float first ∧ right = .float second ∧
        first.canonical = second.canonical := by
  unfold alike
  split
  · next first second =>
    simp only [beq_iff_eq, double.injEq, reduceCtorEq, false_and, and_false, exists_false, or_false]
    constructor
    · exact fun heq => .inr ⟨first, second, rfl, rfl, heq⟩
    · rintro (rfl | ⟨_, _, rfl, rfl, heq⟩)
      · rfl
      · exact heq
  · next first second =>
    simp only [beq_iff_eq, float.injEq, reduceCtorEq, false_and, and_false, exists_false, false_or]
    constructor
    · exact fun heq => .inr ⟨first, second, rfl, rfl, heq⟩
    · rintro (rfl | ⟨_, _, rfl, rfl, heq⟩)
      · rfl
      · exact heq
  · next hdouble hfloat =>
    rw [beq_iff_eq]
    constructor
    · exact .inl
    · rintro (rfl | ⟨first, second, rfl, rfl, -⟩ | ⟨first, second, rfl, rfl, -⟩)
      · rfl
      · exact absurd rfl (hdouble first second rfl)
      · exact absurd rfl (hfloat first second rfl)

theorem Wire.Scalar.alike_refl (scalar : Scalar) : scalar.alike scalar :=
  alike_iff.mpr (.inl rfl)

theorem Wire.Scalar.alike_symm {left right : Scalar} (halike : left.alike right) :
    right.alike left := by
  rw [alike_iff] at halike ⊢
  rcases halike with rfl | ⟨first, second, rfl, rfl, heq⟩ | ⟨first, second, rfl, rfl, heq⟩
  · exact .inl rfl
  · exact .inr (.inl ⟨second, first, rfl, rfl, heq.symm⟩)
  · exact .inr (.inr ⟨second, first, rfl, rfl, heq.symm⟩)

theorem Wire.Scalar.alike_trans {left middle right : Scalar} (hleft : left.alike middle)
    (hright : middle.alike right) : left.alike right := by
  rw [alike_iff] at hleft hright ⊢
  rcases hleft with rfl | ⟨first, second, rfl, rfl, heq⟩ | ⟨first, second, rfl, rfl, heq⟩
  · exact hright
  · rcases hright with rfl | ⟨_, third, hsame, rfl, heq'⟩ | ⟨_, _, hsame, _⟩
    · exact .inr (.inl ⟨first, second, rfl, rfl, heq⟩)
    · cases hsame
      exact .inr (.inl ⟨first, third, rfl, rfl, heq.trans heq'⟩)
    · cases hsame
  · rcases hright with rfl | ⟨_, _, hsame, _⟩ | ⟨_, third, hsame, rfl, heq'⟩
    · exact .inr (.inr ⟨first, second, rfl, rfl, heq⟩)
    · cases hsame
    · cases hsame
      exact .inr (.inr ⟨first, third, rfl, rfl, heq.trans heq'⟩)

theorem Wire.Scalar.alike_equivalence :
    Equivalence fun left right : Scalar => left.alike right = true :=
  ⟨alike_refl, alike_symm, alike_trans⟩

theorem Wire.Atom.alike_refl : ∀ atom : Atom, atom.alike atom
  | .scalar value => value.alike_refl
  | .enumeration value => by simp [alike]

theorem Wire.Atom.alike_symm :
    ∀ {left right : Atom}, left.alike right → right.alike left
  | .scalar _, .scalar _, halike => Scalar.alike_symm halike
  | .enumeration _, .enumeration _, halike => beq_iff_eq.mpr (beq_iff_eq.mp halike).symm

theorem Wire.Atom.alike_trans :
    ∀ {left middle right : Atom}, left.alike middle → middle.alike right → left.alike right
  | .scalar _, .scalar _, .scalar _, hleft, hright => Scalar.alike_trans hleft hright
  | .enumeration _, .enumeration _, .enumeration _, hleft, hright =>
    beq_iff_eq.mpr ((beq_iff_eq.mp hleft).trans (beq_iff_eq.mp hright))

/-! ## The parts of alike values -/

theorem Value.alikeList_iff {left right : List Value} :
    Value.alikeList left right ↔
      List.Forall₂ (fun first second => first.alike second) left right := by
  induction left generalizing right with
  | nil => cases right <;> simp [Value.alikeList]
  | cons value left ih => cases right <;> simp [Value.alikeList, ih]

/-- Entries with alike keys and alike values. -/
def Value.AlikeEntries (left right : Value × Value) : Prop :=
  left.1.alike right.1 ∧ left.2.alike right.2

theorem Value.coveredEntries_iff {left right : List (Value × Value)} :
    Value.coveredEntries left right ↔
      ∀ entry ∈ left, ∃ other ∈ right, Value.AlikeEntries entry other := by
  induction left with
  | nil => simp [Value.coveredEntries]
  | cons entry left ih =>
    rw [Value.coveredEntries, Bool.and_eq_true, ih, List.forall_mem_cons]
    simp [Value.AlikeEntries]

/-- Field values of one shape with alike elements. -/
inductive FieldValue.Alike : FieldValue → FieldValue → Prop
  | singular {left right : Value} (halike : left.alike right) :
    Alike (.singular left) (.singular right)
  | absent : Alike (.option none) (.option none)
  | present {left right : Value} (halike : left.alike right) :
    Alike (.option (some left)) (.option (some right))
  | list {left right : List Value}
    (halike : List.Forall₂ (fun first second => first.alike second) left right) :
    Alike (.list left) (.list right)
  | map {left right : List (Value × Value)} (hlength : left.length = right.length)
    (hcovered : ∀ entry ∈ left, ∃ other ∈ right, Value.AlikeEntries entry other) :
    Alike (.map left) (.map right)

theorem FieldValue.alike_iff {left right : FieldValue} :
    left.alike right ↔ FieldValue.Alike left right := by
  constructor
  · intro halike
    cases left with
    | singular first =>
      cases right <;> simp only [FieldValue.alike, Bool.false_eq_true] at halike
      exact .singular halike
    | option first =>
      rcases first with _ | first <;> rcases right with _ | (_ | second) | _ | _ <;>
        simp only [FieldValue.alike, Bool.false_eq_true] at halike
      · exact .absent
      · exact .present halike
    | list firsts =>
      cases right <;> simp only [FieldValue.alike, Bool.false_eq_true] at halike
      exact .list (Value.alikeList_iff.mp halike)
    | map firsts =>
      cases right <;> simp only [FieldValue.alike, Bool.false_eq_true, Bool.and_eq_true,
        beq_iff_eq] at halike
      exact .map halike.1 (Value.coveredEntries_iff.mp halike.2)
  · intro halike
    cases halike with
    | singular halike => rwa [FieldValue.alike]
    | absent => rw [FieldValue.alike]
    | present halike => rwa [FieldValue.alike]
    | list halike => rwa [FieldValue.alike, Value.alikeList_iff]
    | map hlength hcovered =>
      rw [FieldValue.alike, Bool.and_eq_true, beq_iff_eq, Value.coveredEntries_iff]
      exact ⟨hlength, hcovered⟩

theorem Record.covered_iff {left right : Record} :
    Record.covered left right ↔
      ∀ field ∈ left, ∃ value, right.get? field.1 = some value ∧ field.2.alike value := by
  induction left with
  | nil => simp [Record.covered]
  | cons field left ih =>
    rw [Record.covered, Bool.and_eq_true, ih, List.forall_mem_cons]
    refine and_congr_left fun _ => ?_
    rw [Record.get?]
    cases List.lookup field.1 right <;> simp

/-- The same number and alike values. -/
def Record.AlikeFields (left right : UInt32 × FieldValue) : Prop :=
  left.1 = right.1 ∧ left.2.alike right.2

/-- Two ascending lists of numbers of the same length are equal if one has all of the other. -/
theorem Record.map_fst_eq_of_subset {left right : Record} (hleft : left.Ascending)
    (hright : right.Ascending) (hlength : left.length = right.length)
    (hsubset : ∀ field ∈ left, field.1 ∈ right.map (·.1)) :
    left.map (·.1) = right.map (·.1) := by
  have hincluded : left.map (·.1) ⊆ right.map (·.1) := by
    intro id hid
    obtain ⟨field, hfield, rfl⟩ := List.mem_map.mp hid
    exact hsubset field hfield
  have hperm : (left.map (·.1)).Perm (right.map (·.1)) :=
    (List.subperm_of_subset hleft.nodup hincluded).perm_of_length_le (by simp [hlength])
  refine hperm.eq_of_pairwise ?_ (List.pairwise_map.mpr hleft) (List.pairwise_map.mpr hright)
  exact fun first second _ _ hlt hgt => absurd hgt (UInt32.lt_asymm hlt)

/-- Ascending records are alike if they are place by place. -/
theorem Record.alike_iff {left right : Record} (hleft : left.Ascending)
    (hright : right.Ascending) :
    left.alike right ↔ List.Forall₂ Record.AlikeFields left right := by
  rw [Record.alike, Value.alike, Bool.and_eq_true, beq_iff_eq, Record.covered_iff]
  constructor
  · rintro ⟨hlength, hcovered⟩
    have hids : left.map (·.1) = right.map (·.1) := by
      refine map_fst_eq_of_subset hleft hright hlength fun field hfield => ?_
      obtain ⟨value, hget, -⟩ := hcovered field hfield
      exact List.mem_map.mpr ⟨_, mem_of_get?_eq_some hget, rfl⟩
    have hplaces : List.Forall₂ (fun first second => first.1 = second.1) left right := by
      have heq : List.Forall₂ (· = ·) (left.map (·.1)) (right.map (·.1)) := by
        rw [List.forall₂_eq_eq_eq]
        exact hids
      simpa only [List.forall₂_map_left_iff, List.forall₂_map_right_iff] using heq
    refine Outcome.forall₂_imp_of_mem hplaces fun first hfirst second hsecond heq => ⟨heq, ?_⟩
    obtain ⟨value, hget, halike⟩ := hcovered first hfirst
    rw [heq, get?_eq_some_of_mem hright hsecond] at hget
    exact Option.some.inj hget ▸ halike
  · intro hplaces
    refine ⟨hplaces.length_eq, fun field hfield => ?_⟩
    obtain ⟨other, hother, heq, halike⟩ := Outcome.exists_right_of_mem hplaces hfield
    exact ⟨other.2, heq ▸ get?_eq_some_of_mem hright hother, halike⟩

/-! ## Proper records -/

mutual

/-- At every depth, numbers ascend and no key of a map is alike to a later one. -/
def Value.isProper : Value → Bool
  | .atom _ => true
  | .record fields => decide (Record.Ascending fields) && Record.areProper fields

def FieldValue.isProper : FieldValue → Bool
  | .singular value => value.isProper
  | .option none => true
  | .option (some value) => value.isProper
  | .list values => Value.areProper values
  | .map entries => decide (Keyed.Apart Value.alike entries) && Value.entriesProper entries

def Record.areProper : List (UInt32 × FieldValue) → Bool
  | [] => true
  | (_, value) :: rest => value.isProper && Record.areProper rest

def Value.areProper : List Value → Bool
  | [] => true
  | value :: rest => value.isProper && Value.areProper rest

def Value.entriesProper : List (Value × Value) → Bool
  | [] => true
  | (key, value) :: rest => key.isProper && value.isProper && Value.entriesProper rest

end

def Record.isProper (record : Record) : Bool :=
  Value.isProper (.record record)

theorem Value.areProper_iff {values : List Value} :
    Value.areProper values ↔ ∀ value ∈ values, value.isProper := by
  induction values with
  | nil => simp [Value.areProper]
  | cons value rest ih => simp [Value.areProper, ih]

theorem Value.entriesProper_iff {entries : List (Value × Value)} :
    Value.entriesProper entries ↔
      ∀ entry ∈ entries, entry.1.isProper ∧ entry.2.isProper := by
  induction entries with
  | nil => simp [Value.entriesProper]
  | cons entry rest ih => simp [Value.entriesProper, ih]

theorem Record.isProper_iff {record : Record} :
    record.isProper ↔ record.Ascending ∧ ∀ field ∈ record, field.2.isProper := by
  have hfields : ∀ fields : Record,
      Record.areProper fields ↔ ∀ field ∈ fields, field.2.isProper := by
    intro fields
    induction fields with
    | nil => simp [Record.areProper]
    | cons field rest ih => simp [Record.areProper, ih]
  rw [Record.isProper, Value.isProper, Bool.and_eq_true, decide_eq_true_eq, hfields]

theorem FieldValue.isProper_map_iff {entries : List (Value × Value)} :
    (FieldValue.map entries).isProper ↔
      Keyed.Apart Value.alike entries ∧
        ∀ entry ∈ entries, entry.1.isProper ∧ entry.2.isProper := by
  rw [FieldValue.isProper, Bool.and_eq_true, decide_eq_true_eq, Value.entriesProper_iff]

theorem FieldValue.isProper_of_mem_elements {value : FieldValue} (hproper : value.isProper)
    {element : Value} (hmem : element ∈ value.elements) : element.isProper := by
  cases value with
  | singular only =>
    rw [List.mem_singleton.mp hmem]
    exact hproper
  | option only =>
    cases only with
    | none => simp [FieldValue.elements] at hmem
    | some only =>
      rw [List.mem_singleton.mp hmem]
      exact hproper
  | list values => exact Value.areProper_iff.mp hproper element hmem
  | map entries =>
    obtain ⟨entry, hentry, helement⟩ := List.mem_flatMap.mp hmem
    obtain ⟨hkey, hvalue⟩ := (FieldValue.isProper_map_iff.mp hproper).2 entry hentry
    simp only [List.mem_cons, List.not_mem_nil, or_false] at helement
    rcases helement with rfl | rfl
    · exact hkey
    · exact hvalue

/-! ## One level of the equivalence -/

/-- What an equivalence asks at one item, the other items being proper. -/
structure Regular {α : Type} (alike : α → α → Bool) (isProper : α → Bool) (item : α) : Prop where
  refl : alike item item
  symm : ∀ {other}, isProper other → alike item other → alike other item
  trans : ∀ {second third}, isProper second → isProper third →
    alike item second → alike second third → alike item third

abbrev Value.Regular (value : Value) : Prop :=
  SchemaLoom.Regular Value.alike Value.isProper value

abbrev FieldValue.Regular (value : FieldValue) : Prop :=
  SchemaLoom.Regular FieldValue.alike FieldValue.isProper value

theorem Value.regular_atom (atom : Atom) : (Value.atom atom).Regular where
  refl := by
    rw [Value.alike]
    exact atom.alike_refl
  symm {other} _ halike := by
    cases other with
    | record _ => simp [Value.alike] at halike
    | atom other =>
      rw [Value.alike] at halike ⊢
      exact Atom.alike_symm halike
  trans {second third} _ _ hfirst hsecond := by
    cases second with
    | record _ => simp [Value.alike] at hfirst
    | atom second =>
      cases third with
      | record _ => simp [Value.alike] at hsecond
      | atom third =>
        rw [Value.alike] at hfirst hsecond ⊢
        exact Atom.alike_trans hfirst hsecond

theorem forall₂_trans_of_mem {α : Type} {alike : α → α → Prop} {firsts seconds thirds : List α}
    (hfirst : List.Forall₂ alike firsts seconds) (hsecond : List.Forall₂ alike seconds thirds)
    (htrans : ∀ first ∈ firsts, ∀ second ∈ seconds, ∀ third ∈ thirds,
      alike first second → alike second third → alike first third) :
    List.Forall₂ alike firsts thirds := by
  induction hfirst generalizing thirds with
  | nil => exact hsecond
  | cons hhead _ ih =>
    cases hsecond with
    | cons hhead' hrest =>
      refine .cons (htrans _ List.mem_cons_self _ List.mem_cons_self _ List.mem_cons_self
        hhead hhead') (ih hrest ?_)
      intro first hmem second hmem' third hmem''
      exact htrans first (List.mem_cons_of_mem _ hmem) second (List.mem_cons_of_mem _ hmem')
        third (List.mem_cons_of_mem _ hmem'')

/-- The entries of alike maps can be matched one to one. -/
theorem Value.exists_matching_entries {left right : List (Value × Value)}
    (hregular : ∀ entry ∈ left, entry.1.Regular) (hleft : (FieldValue.map left).isProper)
    (hright : (FieldValue.map right).isProper) (hlength : left.length = right.length)
    (hcovered : ∀ entry ∈ left, ∃ other ∈ right, Value.AlikeEntries entry other) :
    ∃ arranged, arranged.Perm right ∧ List.Forall₂ Value.AlikeEntries left arranged := by
  rw [FieldValue.isProper_map_iff] at hleft hright
  refine Outcome.exists_matching hcovered ?_ hlength
  -- Keys alike to the same key are alike, and the keys on the left are not.
  refine hleft.1.imp_of_mem fun {earlier later} hearlier hlater hapart => ?_
  intro other hother hfirst hsecond
  have hkey := (hright.2 other hother).1
  have hback : other.1.alike later.1 := (hregular later hlater).symm hkey hsecond.1
  have hkeys : earlier.1.alike later.1 :=
    (hregular earlier hearlier).trans hkey (hleft.2 later hlater).1 hfirst.1 hback
  simp [hkeys] at hapart

theorem FieldValue.forall_mem_elements_map {entries : List (Value × Value)} {holds : Value → Prop} :
    (∀ element ∈ (FieldValue.map entries).elements, holds element) ↔
      ∀ entry ∈ entries, holds entry.1 ∧ holds entry.2 := by
  simp only [FieldValue.elements, List.forall_mem_flatMap, List.forall_mem_cons]
  simp

section Regularity

variable {value : FieldValue} (helements : ∀ element ∈ value.elements, element.Regular)

include helements

theorem FieldValue.alike_refl_of_elements : value.alike value := by
  rw [FieldValue.alike_iff]
  cases value with
  | singular only => exact .singular (helements only List.mem_cons_self).refl
  | option only =>
    cases only with
    | none => exact .absent
    | some only => exact .present (helements only List.mem_cons_self).refl
  | list values =>
    exact .list (List.forall₂_same.mpr fun element hmem => (helements element hmem).refl)
  | map entries =>
    rw [FieldValue.forall_mem_elements_map] at helements
    refine .map rfl fun entry hentry => ⟨entry, hentry, ?_⟩
    exact ⟨(helements entry hentry).1.refl, (helements entry hentry).2.refl⟩

theorem FieldValue.alike_symm_of_elements {other : FieldValue} (hproper : value.isProper)
    (hother : other.isProper) (halike : value.alike other) : other.alike value := by
  rw [FieldValue.alike_iff] at halike ⊢
  cases halike with
  | singular halike => exact .singular ((helements _ List.mem_cons_self).symm hother halike)
  | absent => exact .absent
  | present halike => exact .present ((helements _ List.mem_cons_self).symm hother halike)
  | list halike =>
    have hothers := Value.areProper_iff.mp hother
    refine .list (Outcome.forall₂_imp_of_mem halike ?_).flip
    exact fun first hfirst second hsecond => (helements first hfirst).symm (hothers second hsecond)
  | map hlength hcovered =>
    rw [FieldValue.forall_mem_elements_map] at helements
    obtain ⟨arranged, hperm, hplaces⟩ := Value.exists_matching_entries
      (fun entry hentry => (helements entry hentry).1) hproper hother hlength hcovered
    refine .map hlength.symm fun entry hentry => ?_
    obtain ⟨found, hfound, hkey, hvalue⟩ :=
      Outcome.exists_left_of_mem hplaces (hperm.mem_iff.mpr hentry)
    obtain ⟨hproperKey, hproperValue⟩ := (FieldValue.isProper_map_iff.mp hother).2 entry hentry
    exact ⟨found, hfound, (helements found hfound).1.symm hproperKey hkey,
      (helements found hfound).2.symm hproperValue hvalue⟩

theorem FieldValue.alike_trans_of_elements {second third : FieldValue} (hsecond : second.isProper)
    (hthird : third.isProper) (hfirst : value.alike second) (hnext : second.alike third) :
    value.alike third := by
  rw [FieldValue.alike_iff] at hfirst hnext ⊢
  cases hfirst with
  | singular hfirst =>
    cases hnext with
    | singular hnext =>
      exact .singular ((helements _ List.mem_cons_self).trans hsecond hthird hfirst hnext)
  | absent => exact hnext
  | present hfirst =>
    cases hnext with
    | present hnext =>
      exact .present ((helements _ List.mem_cons_self).trans hsecond hthird hfirst hnext)
  | list hfirst =>
    cases hnext with
    | list hnext =>
      refine .list (forall₂_trans_of_mem hfirst hnext fun one hone two htwo three hthree => ?_)
      exact (helements one hone).trans (Value.areProper_iff.mp hsecond two htwo)
        (Value.areProper_iff.mp hthird three hthree)
  | map hlength hcovered =>
    cases hnext with
    | map hlength' hcovered' =>
      rw [FieldValue.forall_mem_elements_map] at helements
      rw [FieldValue.isProper_map_iff] at hsecond hthird
      refine .map (hlength.trans hlength') fun entry hentry => ?_
      obtain ⟨found, hfound, hkey, hvalue⟩ := hcovered entry hentry
      obtain ⟨last, hlast, hkey', hvalue'⟩ := hcovered' found hfound
      obtain ⟨hfoundKey, hfoundValue⟩ := hsecond.2 found hfound
      obtain ⟨hlastKey, hlastValue⟩ := hthird.2 last hlast
      exact ⟨last, hlast, (helements entry hentry).1.trans hfoundKey hlastKey hkey hkey',
        (helements entry hentry).2.trans hfoundValue hlastValue hvalue hvalue'⟩

theorem FieldValue.regular_of_elements (hproper : value.isProper) : value.Regular where
  refl := alike_refl_of_elements helements
  symm hother := alike_symm_of_elements helements hproper hother
  trans hsecond hthird := alike_trans_of_elements helements hsecond hthird

end Regularity

/-- A record is regular if the values of its fields are. -/
theorem Record.regular_of_fields {record : Record} (hproper : record.isProper)
    (hfields : ∀ field ∈ record, field.2.Regular) : (Value.record record).Regular := by
  obtain ⟨hascending, -⟩ := Record.isProper_iff.mp hproper
  refine ⟨?_, fun {other} hother halike => ?_, fun {second third} hsecond hthird hfirst hnext => ?_⟩
  · refine (Record.alike_iff hascending hascending).mpr (List.forall₂_same.mpr ?_)
    exact fun field hfield => ⟨rfl, (hfields field hfield).refl⟩
  · cases other with
    | atom _ => simp [Value.alike] at halike
    | record other =>
      obtain ⟨hascending', hproper'⟩ := Record.isProper_iff.mp hother
      refine (Record.alike_iff hascending' hascending).mpr ?_
      have hplaces := (Record.alike_iff hascending hascending').mp halike
      refine (Outcome.forall₂_imp_of_mem hplaces fun first hfirst second hsecond => ?_).flip
      rintro ⟨hid, hvalue⟩
      exact ⟨hid.symm, (hfields first hfirst).symm (hproper' second hsecond) hvalue⟩
  · cases second with
    | atom _ => simp [Value.alike] at hfirst
    | record second =>
      cases third with
      | atom _ => simp [Value.alike] at hnext
      | record third =>
        obtain ⟨hascending', hproper'⟩ := Record.isProper_iff.mp hsecond
        obtain ⟨hascending'', hproper''⟩ := Record.isProper_iff.mp hthird
        refine (Record.alike_iff hascending hascending'').mpr ?_
        refine forall₂_trans_of_mem ((Record.alike_iff hascending hascending').mp hfirst)
          ((Record.alike_iff hascending' hascending'').mp hnext) ?_
        rintro one hone two htwo three hthree ⟨hid, hvalue⟩ ⟨hid', hvalue'⟩
        exact ⟨hid.trans hid', (hfields one hone).trans (hproper' two htwo) (hproper'' three hthree)
          hvalue hvalue'⟩

/-! ## The equivalence -/

theorem Record.regular {record : Record} (hproper : record.isProper) :
    (Value.record record).Regular := by
  induction record using Record.nested_induction with
  | step record ih =>
    refine Record.regular_of_fields hproper fun field hfield => ?_
    have hvalue := (Record.isProper_iff.mp hproper).2 field hfield
    refine FieldValue.regular_of_elements (fun element helement => ?_) hvalue
    cases element with
    | atom atom => exact Value.regular_atom atom
    | record inner =>
      exact ih field.1 field.2 hfield inner helement
        (FieldValue.isProper_of_mem_elements hvalue helement)

theorem Value.regular {value : Value} (hproper : value.isProper) : value.Regular := by
  cases value with
  | atom atom => exact Value.regular_atom atom
  | record record => exact Record.regular hproper

/-- A record in which, at every depth, numbers ascend and keys of maps are apart. -/
def ProperRecord := { record : Record // record.isProper }

/-- Equality of proper records is an equivalence. -/
theorem ProperRecord.equivalence_alike :
    Equivalence fun left right : ProperRecord => left.1.alike right.1 where
  refl record := (Record.regular record.2).refl
  symm {left right} := (Record.regular left.2).symm right.2
  trans {left middle right} := (Record.regular left.2).trans middle.2 right.2

end SchemaLoom
