import SchemaLoom.Record.Basic

/-!
# Looking up the fields of a record

A record in ascending order of its field numbers is determined by what each number looks up.
Setting a field changes exactly that look-up and keeps the order.
-/

namespace SchemaLoom.Record

/-- The numbers of a record ascend, so none occurs twice. -/
def Ascending (record : Record) : Prop :=
  record.Pairwise fun left right => left.1 < right.1

instance (record : Record) : Decidable record.Ascending :=
  inferInstanceAs (Decidable (record.Pairwise _))

@[simp]
theorem get?_nil (id : UInt32) : get? [] id = none := rfl

theorem get?_cons (id other : UInt32) (value : FieldValue) (rest : Record) :
    get? ((other, value) :: rest) id = if id = other then some value else rest.get? id := by
  by_cases heq : id = other
  · simp [get?, heq]
  · have hbeq : (id == other) = false := by simpa using heq
    rw [if_neg heq, get?, List.lookup_cons, hbeq]
    rfl

theorem get?_append (left right : Record) (id : UInt32) :
    get? (left ++ right) id = (left.get? id).or (right.get? id) :=
  List.lookup_append

theorem get?_map (change : FieldValue → FieldValue) (record : Record) (id : UInt32) :
    get? (record.map fun field => (field.1, change field.2)) id = (record.get? id).map change := by
  induction record with
  | nil => rfl
  | cons field rest ih =>
    obtain ⟨first, value⟩ := field
    rw [List.map_cons, get?_cons, get?_cons, ih]
    by_cases heq : id = first
    · simp [heq]
    · simp [heq]

theorem mem_of_get?_eq_some {record : Record} {id : UInt32} {value : FieldValue}
    (hget : record.get? id = some value) : (id, value) ∈ record := by
  obtain ⟨before, after, hsplit, -⟩ := List.lookup_eq_some_iff.mp hget
  simp [hsplit]

theorem get?_eq_none_of_forall_ne {record : Record} {id : UInt32}
    (hne : ∀ field ∈ record, field.1 ≠ id) : record.get? id = none := by
  simp only [get?, List.lookup_eq_none_iff, bne_iff_ne]
  exact fun field hfield heq => hne field hfield heq.symm

theorem isSome_get?_of_mem {record : Record} {field : UInt32 × FieldValue} (hmem : field ∈ record) :
    (record.get? field.1).isSome := by
  rw [Option.isSome_iff_ne_none]
  intro hnone
  have hne := List.lookup_eq_none_iff.mp hnone field hmem
  simp at hne

theorem get?_eq_some_of_nodup {record : Record} (hnodup : (record.map (·.1)).Nodup) {id : UInt32}
    {value : FieldValue} (hmem : (id, value) ∈ record) : record.get? id = some value := by
  induction record with
  | nil => simp at hmem
  | cons field rest ih =>
    obtain ⟨hhead, hrest⟩ := List.nodup_cons.mp hnodup
    rcases List.mem_cons.mp hmem with rfl | hmem
    · simp [get?_cons]
    · have hne : id ≠ field.1 := fun heq => hhead (List.mem_map.mpr ⟨_, hmem, heq⟩)
      rw [get?_cons, if_neg hne]
      exact ih hrest hmem

theorem mem_map_fst_iff {record : Record} {id : UInt32} :
    id ∈ record.map (·.1) ↔ (record.get? id).isSome := by
  constructor
  · intro hmem
    obtain ⟨field, hfield, rfl⟩ := List.mem_map.mp hmem
    exact isSome_get?_of_mem hfield
  · intro hsome
    obtain ⟨value, hget⟩ := Option.isSome_iff_exists.mp hsome
    exact List.mem_map.mpr ⟨(id, value), mem_of_get?_eq_some hget, rfl⟩

theorem Ascending.nodup {record : Record} (hascending : record.Ascending) :
    (record.map (·.1)).Nodup :=
  List.pairwise_map.mpr (hascending.imp UInt32.ne_of_lt)

theorem get?_eq_some_of_mem {record : Record} (hascending : record.Ascending) {id : UInt32}
    {value : FieldValue} (hmem : (id, value) ∈ record) : record.get? id = some value :=
  get?_eq_some_of_nodup hascending.nodup hmem

/-! ## Setting a field -/

/-- Setting a field changes the look-up of its number only, whatever the order of the numbers. -/
theorem get?_insert (id other : UInt32) (value : FieldValue) (record : Record) :
    get? (insert id value record) other = if other = id then some value else record.get? other := by
  induction record with
  | nil => simp [insert, get?_cons]
  | cons field rest ih =>
    obtain ⟨first, old⟩ := field
    simp only [insert]
    split
    · next heq =>
      subst heq
      simp only [get?_cons]
      split <;> rfl
    · next hne =>
      split
      · simp only [get?_cons]
      · simp only [get?_cons, ih]
        by_cases hother : other = first
        · subst hother
          simp [Ne.symm hne]
        · simp [hother]

theorem mem_insert {id : UInt32} {value : FieldValue} {record : Record}
    {field : UInt32 × FieldValue} (hmem : field ∈ insert id value record) :
    field = (id, value) ∨ field ∈ record := by
  induction record with
  | nil => simpa [insert] using hmem
  | cons head rest ih =>
    obtain ⟨first, old⟩ := head
    simp only [insert] at hmem
    split at hmem
    · rcases List.mem_cons.mp hmem with rfl | hmem
      · exact .inl rfl
      · exact .inr (List.mem_cons_of_mem _ hmem)
    · split at hmem
      · exact List.mem_cons.mp hmem
      · rcases List.mem_cons.mp hmem with rfl | hmem
        · exact .inr List.mem_cons_self
        · exact (ih hmem).imp_right (List.mem_cons_of_mem _)

theorem ascending_insert {record : Record} (hascending : record.Ascending) (id : UInt32)
    (value : FieldValue) : (insert id value record).Ascending := by
  induction record with
  | nil => exact List.pairwise_singleton _ _
  | cons field rest ih =>
    obtain ⟨first, old⟩ := field
    obtain ⟨hhead, hrest⟩ := List.pairwise_cons.mp hascending
    simp only [insert]
    split
    · next heq =>
      subst heq
      exact List.pairwise_cons.mpr ⟨hhead, hrest⟩
    · next hne =>
      split
      · next hlt =>
        refine List.pairwise_cons.mpr ⟨fun other hother => ?_, hascending⟩
        rcases List.mem_cons.mp hother with rfl | hother
        · exact hlt
        · exact UInt32.lt_trans hlt (hhead other hother)
      · next hnot =>
        refine List.pairwise_cons.mpr ⟨fun other hother => ?_, ih hrest⟩
        rcases mem_insert hother with rfl | hother
        · exact UInt32.lt_of_le_of_ne (UInt32.not_lt.mp hnot) (Ne.symm hne)
        · exact hhead other hother

/-! ## Records from lists of fields -/

theorem ascending_foldl_insert {record : Record} (hascending : record.Ascending)
    (fields : List (UInt32 × FieldValue)) :
    Ascending (fields.foldl (fun record field => insert field.1 field.2 record) record) := by
  induction fields generalizing record with
  | nil => exact hascending
  | cons field fields ih => exact ih (ascending_insert hascending field.1 field.2)

theorem ascending_ofList (fields : List (UInt32 × FieldValue)) : (ofList fields).Ascending :=
  ascending_foldl_insert .nil fields

/-- The last value of a number counts; for numbers not among the fields the start does. -/
theorem get?_foldl_insert (fields record : Record) (id : UInt32) :
    get? (fields.foldl (fun record field => insert field.1 field.2 record) record) id =
      (get? fields.reverse id).or (record.get? id) := by
  induction fields generalizing record with
  | nil => simp
  | cons field fields ih =>
    obtain ⟨first, value⟩ := field
    rw [List.foldl_cons, ih, get?_insert, List.reverse_cons, get?_append, get?_cons, Option.or_assoc]
    by_cases heq : id = first
    · simp [heq]
    · simp [heq]

theorem get?_reverse_of_nodup {fields : Record} (hnodup : (fields.map (·.1)).Nodup)
    (id : UInt32) : get? fields.reverse id = fields.get? id := by
  induction fields with
  | nil => rfl
  | cons field fields ih =>
    obtain ⟨first, value⟩ := field
    obtain ⟨hhead, hrest⟩ := List.nodup_cons.mp hnodup
    rw [List.reverse_cons, get?_append, ih hrest, get?_cons, get?_cons]
    by_cases heq : id = first
    · have hnone : get? fields id = none := by
        refine get?_eq_none_of_forall_ne fun other hother hsame => hhead ?_
        exact List.mem_map.mpr ⟨other, hother, hsame.trans heq⟩
      rw [hnone, if_pos heq, if_pos heq]
      rfl
    · simp [heq]

theorem get?_ofList {fields : Record} (hnodup : (fields.map (·.1)).Nodup) (id : UInt32) :
    (ofList fields).get? id = fields.get? id := by
  rw [ofList, get?_foldl_insert, get?_reverse_of_nodup hnodup]
  simp

/-! ## Extensionality -/

/-- Two ascending records with the same look-ups are the same. -/
theorem ext_get? {left right : Record} (hleft : left.Ascending) (hright : right.Ascending)
    (hget : ∀ id, left.get? id = right.get? id) : left = right := by
  induction left generalizing right with
  | nil =>
    cases right with
    | nil => rfl
    | cons field rest =>
      obtain ⟨id, value⟩ := field
      simpa [get?_cons] using hget id
  | cons field rest ih =>
    obtain ⟨id, value⟩ := field
    cases right with
    | nil => simpa [get?_cons] using hget id
    | cons field' rest' =>
      obtain ⟨id', value'⟩ := field'
      obtain ⟨hhead, hrest⟩ := List.pairwise_cons.mp hleft
      obtain ⟨hhead', hrest'⟩ := List.pairwise_cons.mp hright
      -- Each head is found on the other side, so neither number is below the other.
      have hfound : (id, value) ∈ (id', value') :: rest' :=
        mem_of_get?_eq_some (by rw [← hget, get?_cons, if_pos rfl])
      have hfound' : (id', value') ∈ (id, value) :: rest :=
        mem_of_get?_eq_some (by rw [hget, get?_cons, if_pos rfl])
      have hsame : (id, value) = (id', value') := by
        rcases List.mem_cons.mp hfound with heq | hmem
        · exact heq
        · rcases List.mem_cons.mp hfound' with heq | hmem'
          · exact heq.symm
          · exact absurd (hhead _ hmem') (UInt32.lt_asymm (hhead' _ hmem))
      obtain ⟨rfl, rfl⟩ := Prod.mk.inj hsame
      congr 1
      refine ih hrest hrest' fun other => ?_
      by_cases heq : other = id
      · subst heq
        rw [get?_eq_none_of_forall_ne fun field hfield => (UInt32.ne_of_lt (hhead field hfield)).symm,
          get?_eq_none_of_forall_ne fun field hfield => (UInt32.ne_of_lt (hhead' field hfield)).symm]
      · simpa [get?_cons, heq] using hget other

end SchemaLoom.Record
