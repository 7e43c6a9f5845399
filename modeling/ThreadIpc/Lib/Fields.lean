import ThreadIpc.Lib.Delimited

/-!
# Fields

What stands between delimiters, of which any number may stand together.
-/

namespace ThreadIpc.Lib

variable {α : Type*} [DecidableEq α]

def fields (delimiter : α) (text : List α) : List (List α) :=
  match _start : text.dropWhile (· == delimiter) with
  | [] => []
  | c :: rest =>
      (c :: rest.takeWhile (· != delimiter)) ::
        fields delimiter (rest.dropWhile (· != delimiter))
termination_by text.length
decreasing_by
  have shorter := (List.dropWhile_sublist (· == delimiter) (l := text)).length_le
  have shorter' := (List.dropWhile_sublist (· != delimiter) (l := rest)).length_le
  rw [_start, List.length_cons] at shorter
  omega

section Equations

variable {delimiter : α} {field : List α}

theorem fields_of_start {text : List α} {c : α} {rest : List α}
    (start : text.dropWhile (· == delimiter) = c :: rest) :
    fields delimiter text = (c :: rest.takeWhile (· != delimiter)) ::
      fields delimiter (rest.dropWhile (· != delimiter)) := by
  rw [fields]
  split
  · rename_i none_
    cases start.symm.trans none_
  · rename_i start'
    cases start.symm.trans start'
    rfl

theorem fields_of_none {text : List α} (none_ : text.dropWhile (· == delimiter) = []) :
    fields delimiter text = [] := by
  rw [fields]
  split
  · rfl
  · rename_i start
    cases none_.symm.trans start

@[simp] theorem fields_nil : fields delimiter [] = [] := fields_of_none rfl

@[simp] theorem fields_delimiter (text : List α) :
    fields delimiter (delimiter :: text) = fields delimiter text := by
  have skip : (delimiter :: text).dropWhile (· == delimiter) = text.dropWhile (· == delimiter) :=
    List.dropWhile_cons_of_pos (beq_self_eq_true delimiter)
  cases start : text.dropWhile (· == delimiter) with
  | nil => rw [fields_of_none start, fields_of_none (skip.trans start)]
  | cons c rest => rw [fields_of_start start, fields_of_start (skip.trans start)]

theorem fields_field (absent : delimiter ∉ field) (some_ : field ≠ []) :
    fields delimiter field = [field] := by
  obtain ⟨c, rest, rfl⟩ := List.exists_cons_of_ne_nil some_
  obtain ⟨other, absent⟩ := not_or.mp (mt List.mem_cons.mpr absent)
  have start : (c :: rest).dropWhile (· == delimiter) = c :: rest :=
    List.dropWhile_cons_of_neg (by simpa using Ne.symm other)
  rw [fields_of_start start, takeWhile_absent absent, dropWhile_absent absent, fields_nil]

theorem fields_append (absent : delimiter ∉ field) (some_ : field ≠ []) (text : List α) :
    fields delimiter (field ++ delimiter :: text) = field :: fields delimiter text := by
  obtain ⟨c, rest, rfl⟩ := List.exists_cons_of_ne_nil some_
  obtain ⟨other, absent⟩ := not_or.mp (mt List.mem_cons.mpr absent)
  have start : (c :: rest ++ delimiter :: text).dropWhile (· == delimiter) =
      c :: (rest ++ delimiter :: text) :=
    List.dropWhile_cons_of_neg (by simpa using Ne.symm other)
  rw [fields_of_start start, takeWhile_delimiter absent, dropWhile_delimiter absent, fields_delimiter]

theorem fields_induction {motive : List α → Prop} (nil : motive [])
    (delimited : ∀ text, motive text → motive (delimiter :: text))
    (field : ∀ field, delimiter ∉ field → field ≠ [] → motive field)
    (append : ∀ field text, delimiter ∉ field → field ≠ [] → motive text →
      motive (field ++ delimiter :: text)) (text : List α) : motive text := by
  induction length : text.length using Nat.strongRecOn generalizing text with
  | ind n ih =>
      by_cases member : delimiter ∈ text
      · obtain ⟨front, rest, rfl, absent⟩ := List.eq_append_cons_of_mem member
        rw [List.length_append, List.length_cons] at length
        have shorter := ih rest.length (by omega) rest rfl
        by_cases empty : front = []
        · rw [empty]
          exact delimited rest shorter
        · exact append front rest absent empty shorter
      · by_cases empty : text = []
        · rw [empty]
          exact nil
        · exact field text member empty

theorem mem_fields {text : List α} :
    ∀ field ∈ fields delimiter text, field ≠ [] ∧ delimiter ∉ field := by
  induction text using @fields_induction α _ delimiter with
  | nil => simp
  | delimited text ih => simpa using ih
  | field field absent some_ =>
      rw [fields_field absent some_]
      exact List.forall_mem_singleton.mpr ⟨some_, absent⟩
  | append field text absent some_ ih =>
      rw [fields_append absent some_]
      exact List.forall_mem_cons.mpr ⟨⟨some_, absent⟩, ih⟩

theorem fields_concat (absent : delimiter ∉ field) (some_ : field ≠ []) (text : List α) :
    fields delimiter (text ++ delimiter :: field) = fields delimiter text ++ [field] := by
  have last : fields delimiter (delimiter :: field) = [field] := by
    rw [fields_delimiter, fields_field absent some_]
  induction text using @fields_induction α _ delimiter with
  | nil => rw [List.nil_append, last, fields_nil, List.nil_append]
  | delimited text ih => rw [List.cons_append, fields_delimiter, ih, fields_delimiter]
  | field first absent' some' =>
      rw [fields_append absent' some', fields_field absent some_, fields_field absent' some']
      rfl
  | append first text absent' some' ih =>
      rw [List.append_assoc, List.cons_append, fields_append absent' some', ih, fields_append absent' some',
        List.cons_append]

theorem fields_trailing (text : List α) : fields delimiter (text ++ [delimiter]) = fields delimiter text := by
  induction text using @fields_induction α _ delimiter with
  | nil => rw [List.nil_append, fields_delimiter]
  | delimited text ih => rw [List.cons_append, fields_delimiter, ih, fields_delimiter]
  | field first absent some_ => rw [fields_append absent some_, fields_nil, fields_field absent some_]
  | append first text absent some_ ih =>
      rw [List.append_assoc, List.cons_append, fields_append absent some_, ih, fields_append absent some_]

theorem fields_joined {parts : List (List α)}
    (each : ∀ part ∈ parts, part ≠ [] ∧ delimiter ∉ part) :
    fields delimiter (parts.flatMap (delimiter :: ·)) = parts := by
  induction parts with
  | nil => exact fields_nil
  | cons part parts ih =>
      obtain ⟨⟨some_, absent⟩, each⟩ := List.forall_mem_cons.mp each
      rw [List.flatMap_cons, List.cons_append, fields_delimiter]
      cases parts with
      | nil => rw [List.flatMap_nil, List.append_nil, fields_field absent some_]
      | cons next parts =>
          have later := ih each
          rw [List.flatMap_cons, List.cons_append, fields_delimiter] at later
          rw [List.flatMap_cons, List.cons_append, fields_append absent some_, later]

theorem fields_map {β : Type*} [DecidableEq β] {delimiter' : β} {convert : List α → List β}
    (good : List α → Prop) (nil : convert [] = [])
    (split_ : ∀ front rest, good (front ++ delimiter :: rest) → good front ∧ good rest ∧
      convert (front ++ delimiter :: rest) = convert front ++ delimiter' :: convert rest)
    (field : ∀ field, good field → delimiter ∉ field → field ≠ [] →
      delimiter' ∉ convert field ∧ convert field ≠ []) {text : List α} (fine : good text) :
    fields delimiter' (convert text) = (fields delimiter text).map convert := by
  induction text using @fields_induction α _ delimiter with
  | nil => simp [nil]
  | delimited text ih =>
      obtain ⟨_, rest, converted⟩ := split_ [] text fine
      rw [nil, List.nil_append, List.nil_append] at converted
      rw [converted, fields_delimiter, fields_delimiter, ih rest]
  | field text absent some_ =>
      obtain ⟨absent', some'⟩ := field text fine absent some_
      rw [fields_field absent some_, fields_field absent' some', List.map_singleton]
  | append text rest absent some_ ih =>
      obtain ⟨front, behind, converted⟩ := split_ text rest fine
      obtain ⟨absent', some'⟩ := field text front absent some_
      rw [converted, fields_append absent some_, fields_append absent' some', ih behind,
        List.map_cons]

end Equations

end ThreadIpc.Lib
