import SchemaLoom.Proofs.StructuralEquality
import SchemaLoom.Record.Digest

/-!
# Hashing respects structural equality

A hasher is fed the numbers, tags and lengths of a record in order, but of a map only what some
function makes of the digests of its entries.  If that function does not look at their order, alike
proper records are fed alike.  The digest keeps the entries as a bag; a running hash adds up what
hashing each of them on its own gives.
-/

namespace SchemaLoom

open Wire Digest

/-! ## What is fed for a map -/

namespace Digest

/-- The order of the items does not count. -/
def OrderBlind (combine : List (List Nat) → List Nat) : Prop :=
  ∀ ⦃left right : List (List Nat)⦄, left.Perm right → combine left = combine right

theorem le_total (left right : List Nat) : le left right || le right left := by
  induction left generalizing right with
  | nil => simp [le]
  | cons first left ih =>
    cases right with
    | nil => simp [le]
    | cons second right =>
      have hrest := ih right
      simp only [le, Bool.or_eq_true, Bool.and_eq_true, decide_eq_true_eq, beq_iff_eq] at hrest ⊢
      rcases Nat.lt_trichotomy first second with hlt | rfl | hgt
      · exact .inl (.inl hlt)
      · exact hrest.imp (.inr ⟨rfl, ·⟩) (.inr ⟨rfl, ·⟩)
      · exact .inr (.inl hgt)

theorem le_trans {first second third : List Nat} (hfirst : le first second)
    (hsecond : le second third) : le first third := by
  induction first generalizing second third with
  | nil => simp [le]
  | cons head first ih =>
    cases second with
    | nil => simp [le] at hfirst
    | cons head' second =>
      cases third with
      | nil => simp [le] at hsecond
      | cons head'' third =>
        simp only [le, Bool.or_eq_true, Bool.and_eq_true, decide_eq_true_eq, beq_iff_eq]
          at hfirst hsecond ⊢
        rcases hfirst with hlt | ⟨rfl, hfirst⟩
        · omega
        · rcases hsecond with hlt | ⟨rfl, hsecond⟩
          · exact .inl hlt
          · exact .inr ⟨rfl, ih hfirst hsecond⟩

theorem le_antisymm {left right : List Nat} (hleft : le left right) (hright : le right left) :
    left = right := by
  induction left generalizing right with
  | nil =>
    cases right with
    | nil => rfl
    | cons _ _ => simp [le] at hright
  | cons first left ih =>
    cases right with
    | nil => simp [le] at hleft
    | cons second right =>
      simp only [le, Bool.or_eq_true, Bool.and_eq_true, decide_eq_true_eq, beq_iff_eq]
        at hleft hright
      rcases hleft with hlt | ⟨rfl, hleft⟩
      · omega
      · rcases hright with hlt | ⟨-, hright⟩
        · omega
        · rw [ih hleft hright]

/-- Sorting forgets the order. -/
theorem mergeSort_eq_of_perm {left right : List (List Nat)} (hperm : left.Perm right) :
    left.mergeSort le = right.mergeSort le := by
  have hsorted : ∀ items : List (List Nat), (items.mergeSort le).Pairwise fun a b => le a b :=
    List.pairwise_mergeSort (fun _ _ _ => le_trans) le_total
  have hboth : (left.mergeSort le).Perm (right.mergeSort le) :=
    (List.mergeSort_perm left le).trans (hperm.trans (List.mergeSort_perm right le).symm)
  exact hboth.eq_of_pairwise (fun _ _ _ _ => le_antisymm) (hsorted left) (hsorted right)

theorem orderBlind_bag : OrderBlind bag := by
  intro left right hperm
  rw [bag, bag, mergeSort_eq_of_perm hperm, hperm.isEmpty_eq]

/-- The sum, wrapping round, of what a hasher gives for each item. -/
def sumOf (hasher : List Nat → UInt64) (items : List (List Nat)) : List Nat :=
  word64 (items.foldl (fun sum item => sum + hasher item) 0).toNat

theorem orderBlind_sumOf (hasher : List Nat → UInt64) : OrderBlind (sumOf hasher) := by
  intro left right hperm
  have hsum : left.foldl (fun sum item => sum + hasher item) 0 =
      right.foldl (fun sum item => sum + hasher item) 0 := by
    refine hperm.foldl_eq' (fun first _ second _ sum => ?_) 0
    rw [UInt64.add_assoc, UInt64.add_comm (hasher first), UInt64.add_assoc]
  rw [sumOf, sumOf, hsum]

end Digest

/-! ## What is fed for a record -/

mutual

/-- What is fed for a value, the entries of maps going in through `combine`. -/
def Value.feed (combine : List (List Nat) → List Nat) : Value → List Nat
  | .atom value => value.digest
  | .record fields => 17 :: (word64 fields.length ++ Record.feedFields combine fields)

def FieldValue.feed (combine : List (List Nat) → List Nat) : FieldValue → List Nat
  | .singular value => value.feed combine
  | .option none => [0]
  | .option (some value) => 1 :: value.feed combine
  | .list values => word64 values.length ++ Value.feedList combine values
  | .map entries => word64 entries.length ++ combine (Value.feedEntries combine entries)

def Record.feedFields (combine : List (List Nat) → List Nat) :
    List (UInt32 × FieldValue) → List Nat
  | [] => []
  | (id, value) :: rest => word32 id.toNat ++ value.feed combine ++ Record.feedFields combine rest

def Value.feedList (combine : List (List Nat) → List Nat) : List Value → List Nat
  | [] => []
  | value :: rest => value.feed combine ++ Value.feedList combine rest

def Value.feedEntries (combine : List (List Nat) → List Nat) :
    List (Value × Value) → List (List Nat)
  | [] => []
  | (key, value) :: rest =>
    (key.feed combine ++ value.feed combine) :: Value.feedEntries combine rest

end

def Record.feed (combine : List (List Nat) → List Nat) (record : Record) : List Nat :=
  word64 record.length ++ Record.feedFields combine record

/-- The hash of a record: each entry of a map is hashed on its own, and the sum is fed. -/
def Record.hash (hasher : List Nat → UInt64) (record : Record) : UInt64 :=
  hasher (record.feed (sumOf hasher))

mutual

theorem Value.feed_bag : ∀ value : Value, value.feed bag = value.digest
  | .atom value => by rw [Value.feed, Value.digest]
  | .record fields => by rw [Value.feed, Value.digest, Record.feedFields_bag fields]

theorem FieldValue.feed_bag : ∀ value : FieldValue, value.feed bag = value.digest
  | .singular value => by rw [FieldValue.feed, FieldValue.digest, Value.feed_bag value]
  | .option none => by rw [FieldValue.feed, FieldValue.digest]
  | .option (some value) => by rw [FieldValue.feed, FieldValue.digest, Value.feed_bag value]
  | .list values => by rw [FieldValue.feed, FieldValue.digest, Value.feedList_bag values]
  | .map entries => by rw [FieldValue.feed, FieldValue.digest, Value.feedEntries_bag entries]

theorem Record.feedFields_bag : ∀ fields : List (UInt32 × FieldValue),
    Record.feedFields bag fields = Record.digestFields fields
  | [] => by rw [Record.feedFields, Record.digestFields]
  | (id, value) :: rest => by
    rw [Record.feedFields, Record.digestFields, FieldValue.feed_bag value,
      Record.feedFields_bag rest]

theorem Value.feedList_bag : ∀ values : List Value,
    Value.feedList bag values = Value.digestList values
  | [] => by rw [Value.feedList, Value.digestList]
  | value :: rest => by
    rw [Value.feedList, Value.digestList, Value.feed_bag value, Value.feedList_bag rest]

theorem Value.feedEntries_bag : ∀ entries : List (Value × Value),
    Value.feedEntries bag entries = Value.digestEntries entries
  | [] => by rw [Value.feedEntries, Value.digestEntries]
  | (key, value) :: rest => by
    rw [Value.feedEntries, Value.digestEntries, Value.feed_bag key, Value.feed_bag value,
      Value.feedEntries_bag rest]

end

/-- The digest feeds the entries of maps as bags. -/
theorem Record.feed_bag (record : Record) : record.feed bag = record.digest := by
  rw [Record.feed, Record.digest, Record.feedFields_bag]

/-! ## Alike values are fed alike -/

theorem Wire.Scalar.digest_eq_of_alike {left right : Scalar} (halike : left.alike right) :
    (Atom.scalar left).digest = (Atom.scalar right).digest := by
  rcases alike_iff.mp halike with rfl | ⟨first, second, rfl, rfl, heq⟩ |
    ⟨first, second, rfl, rfl, heq⟩
  · rfl
  · simp only [Atom.digest, kind, payload, heq]
  · simp only [Atom.digest, kind, payload, heq]

theorem Wire.Atom.digest_eq_of_alike :
    ∀ {left right : Atom}, left.alike right → left.digest = right.digest
  | .scalar _, .scalar _, halike => Scalar.digest_eq_of_alike halike
  | .enumeration _, .enumeration _, halike => congrArg (digest ∘ enumeration) (beq_iff_eq.mp halike)

section Feed

variable {combine : List (List Nat) → List Nat}

theorem Value.feedList_eq {left right : List Value}
    (hplaces : List.Forall₂ (fun first second => first.feed combine = second.feed combine)
      left right) :
    Value.feedList combine left = Value.feedList combine right := by
  induction hplaces with
  | nil => rfl
  | cons hhead _ ih => rw [Value.feedList, Value.feedList, hhead, ih]

theorem Value.feedEntries_eq_map (entries : List (Value × Value)) :
    Value.feedEntries combine entries =
      entries.map fun entry => entry.1.feed combine ++ entry.2.feed combine := by
  induction entries with
  | nil => rw [Value.feedEntries, List.map_nil]
  | cons entry rest ih => rw [Value.feedEntries, List.map_cons, ih]

theorem Record.feed_eq_of_fields {left right : Record}
    (hplaces : List.Forall₂
      (fun first second => first.1 = second.1 ∧ first.2.feed combine = second.2.feed combine)
      left right) :
    left.feed combine = right.feed combine := by
  have hfields : Record.feedFields combine left = Record.feedFields combine right := by
    induction hplaces with
    | nil => rfl
    | cons hhead _ ih => rw [Record.feedFields, Record.feedFields, hhead.1, hhead.2, ih]
  rw [Record.feed, Record.feed, hfields, hplaces.length_eq]

/-- Anything proper and alike to the value is fed as the value is. -/
def Value.FedAlike (combine : List (List Nat) → List Nat) (value : Value) : Prop :=
  ∀ ⦃other : Value⦄, other.isProper → value.alike other → value.feed combine = other.feed combine

theorem Value.fedAlike_atom (atom : Atom) : (Value.atom atom).FedAlike combine := by
  intro other _ halike
  cases other with
  | record _ => simp [Value.alike] at halike
  | atom other =>
    rw [Value.alike] at halike
    rw [Value.feed, Value.feed, Atom.digest_eq_of_alike halike]

/-- Alike maps are fed alike: their entries are the same up to order, place by place. -/
theorem FieldValue.feed_map_eq (hblind : OrderBlind combine) {left right : List (Value × Value)}
    (hleft : (FieldValue.map left).isProper) (hright : (FieldValue.map right).isProper)
    (helements : ∀ entry ∈ left, entry.1.FedAlike combine ∧ entry.2.FedAlike combine)
    (hlength : left.length = right.length)
    (hcovered : ∀ entry ∈ left, ∃ other ∈ right, Value.AlikeEntries entry other) :
    (FieldValue.map left).feed combine = (FieldValue.map right).feed combine := by
  have hproper := (FieldValue.isProper_map_iff.mp hright).2
  obtain ⟨arranged, hperm, hplaces⟩ := Value.exists_matching_entries
    (fun entry hentry => Value.regular ((FieldValue.isProper_map_iff.mp hleft).2 entry hentry).1)
    hleft hright hlength hcovered
  have hentries : List.Forall₂ (fun entry other =>
      entry.1.feed combine ++ entry.2.feed combine =
        other.1.feed combine ++ other.2.feed combine) left arranged := by
    refine Outcome.forall₂_imp_of_mem hplaces fun entry hentry other hother halike => ?_
    obtain ⟨hkey, hvalue⟩ := hproper other (hperm.mem_iff.mp hother)
    rw [(helements entry hentry).1 hkey halike.1, (helements entry hentry).2 hvalue halike.2]
  have hsame : Value.feedEntries combine left = Value.feedEntries combine arranged := by
    rw [Value.feedEntries_eq_map, Value.feedEntries_eq_map, ← List.forall₂_eq_eq_eq,
      List.forall₂_map_left_iff, List.forall₂_map_right_iff]
    exact hentries
  calc
    (FieldValue.map left).feed combine
      = word64 left.length ++ combine (Value.feedEntries combine left) := by rw [FieldValue.feed]
    _ = word64 right.length ++ combine (Value.feedEntries combine arranged) := by
      rw [hlength, hsame]
    _ = word64 right.length ++ combine (Value.feedEntries combine right) := by
      rw [Value.feedEntries_eq_map, Value.feedEntries_eq_map, hblind (hperm.map _)]
    _ = (FieldValue.map right).feed combine := by rw [FieldValue.feed]

theorem FieldValue.feed_eq_of_elements (hblind : OrderBlind combine) {left right : FieldValue}
    (hleft : left.isProper) (hright : right.isProper)
    (helements : ∀ element ∈ left.elements, element.FedAlike combine)
    (halike : left.alike right) : left.feed combine = right.feed combine := by
  rw [FieldValue.alike_iff] at halike
  cases halike with
  | singular halike =>
    rw [FieldValue.feed, FieldValue.feed, helements _ List.mem_cons_self hright halike]
  | absent => rfl
  | present halike =>
    rw [FieldValue.feed, FieldValue.feed, helements _ List.mem_cons_self hright halike]
  | list halike =>
    have hothers := Value.areProper_iff.mp hright
    have hplaces := Outcome.forall₂_imp_of_mem halike fun element helement other hother =>
      helements element helement (hothers other hother)
    rw [FieldValue.feed, FieldValue.feed, halike.length_eq, Value.feedList_eq hplaces]
  | map hlength hcovered =>
    exact FieldValue.feed_map_eq hblind hleft hright
      (FieldValue.forall_mem_elements_map.mp helements) hlength hcovered

/-- Alike proper records are fed alike. -/
theorem Record.feed_eq (hblind : OrderBlind combine) {left right : Record}
    (hleft : left.isProper) (hright : right.isProper) (halike : left.alike right) :
    left.feed combine = right.feed combine := by
  induction left using Record.nested_induction generalizing right with
  | step left ih =>
    obtain ⟨hascending, hproper⟩ := Record.isProper_iff.mp hleft
    obtain ⟨hascending', hproper'⟩ := Record.isProper_iff.mp hright
    refine Record.feed_eq_of_fields ?_
    refine Outcome.forall₂_imp_of_mem ((Record.alike_iff hascending hascending').mp halike) ?_
    rintro field hfield other hother ⟨hid, hvalue⟩
    refine ⟨hid, FieldValue.feed_eq_of_elements hblind (hproper field hfield)
      (hproper' other hother) (fun element helement => ?_) hvalue⟩
    cases element with
    | atom atom => exact Value.fedAlike_atom atom
    | record inner =>
      intro second hsecond hsame
      cases second with
      | atom _ => simp [Value.alike] at hsame
      | record second =>
        have hinner := FieldValue.isProper_of_mem_elements (hproper field hfield) helement
        have hfed := ih field.1 field.2 hfield inner helement hinner hsecond hsame
        rw [Value.feed, Value.feed]
        exact congrArg (17 :: ·) hfed

end Feed

/-! ## Numbers -/

theorem Value.alike_double_iff {left right : Number.Binary64} :
    (Value.atom (.scalar (.double left))).alike (.atom (.scalar (.double right))) ↔
      left.canonical = right.canonical := by
  rw [Value.alike]
  exact beq_iff_eq

theorem Value.alike_float_iff {left right : Number.Binary32} :
    (Value.atom (.scalar (.float left))).alike (.atom (.scalar (.float right))) ↔
      left.canonical = right.canonical := by
  rw [Value.alike]
  exact beq_iff_eq

/-! ## Equality and hash of records -/

namespace ProperRecord

/-- Equality of proper records is an equivalence, and equal records are fed to a hasher and hashed
alike, whatever the hasher.  Numbers are equal if their canonical bits are, so if they are equal
arithmetically or both NaN. -/
theorem alike_equivalence_hash_eq :
    (Equivalence fun left right : ProperRecord => left.1.alike right.1) ∧
    (∀ left right : ProperRecord, left.1.alike right.1 →
      left.1.digest = right.1.digest ∧
        ∀ hasher : List Nat → UInt64,
          left.1.feed (sumOf hasher) = right.1.feed (sumOf hasher) ∧
            left.1.hash hasher = right.1.hash hasher) ∧
    (∀ left right : Number.Binary64,
      ((Value.atom (.scalar (.double left))).alike (.atom (.scalar (.double right))) ↔
        left.canonical = right.canonical) ∧
      (left.canonical = right.canonical ↔
        left.arithmeticEq right ∨
          Number.Layout.double.isNaN left.bits.toNat ∧
            Number.Layout.double.isNaN right.bits.toNat)) ∧
    (∀ left right : Number.Binary32,
      ((Value.atom (.scalar (.float left))).alike (.atom (.scalar (.float right))) ↔
        left.canonical = right.canonical) ∧
      (left.canonical = right.canonical ↔
        left.arithmeticEq right ∨
          Number.Layout.single.isNaN left.bits.toNat ∧
            Number.Layout.single.isNaN right.bits.toNat)) := by
  refine ⟨equivalence_alike, fun left right halike => ⟨?_, fun hasher => ?_⟩,
    fun left right => ⟨Value.alike_double_iff, ?_⟩, fun left right => ⟨Value.alike_float_iff, ?_⟩⟩
  · rw [← Record.feed_bag, ← Record.feed_bag]
    exact Record.feed_eq orderBlind_bag left.2 right.2 halike
  · have hfeed := Record.feed_eq (orderBlind_sumOf hasher) left.2 right.2 halike
    exact ⟨hfeed, congrArg hasher hfeed⟩
  · exact Number.Layout.canonical_eq_iff (by decide)
  · exact Number.Layout.canonical_eq_iff (by decide)

/-- A map from a NaN and from a record that holds a zero. -/
def ranked : ProperRecord :=
  ⟨[(4, .map [(.atom (.scalar (.double ⟨0x7FF8000000000000⟩)), .atom (.enumeration 1)),
      (.record [(1, .singular (.atom (.scalar (.double ⟨0⟩))))], .atom (.enumeration 2))])],
    by decide +kernel⟩

/-- The same entries the other way round, with another NaN and the negative zero. -/
def rankedBackwards : ProperRecord :=
  ⟨[(4, .map [
      (.record [(1, .singular (.atom (.scalar (.double ⟨0x8000000000000000⟩))))],
        .atom (.enumeration 2)),
      (.atom (.scalar (.double ⟨0xFFF0000000000001⟩)), .atom (.enumeration 1))])],
    by decide +kernel⟩

theorem alike_equivalence_hash_eq_ranked :
    ranked.1.alike rankedBackwards.1 ∧
      rankedBackwards.1.alike ranked.1 ∧
        ∀ hasher, ranked.1.hash hasher = rankedBackwards.1.hash hasher := by
  have halike : ranked.1.alike rankedBackwards.1 := by decide +kernel
  obtain ⟨hequivalence, hhash, -⟩ := alike_equivalence_hash_eq
  exact ⟨halike, hequivalence.symm halike,
    fun hasher => ((hhash ranked rankedBackwards halike).2 hasher).2⟩

end ProperRecord

end SchemaLoom
