import ThreadIpc.HttpUtils.Unfold

/-!
# Continuations that reach the wrong header

A continuation is meant for the header of the line before it, and goes to the last header of the
list. These are the same header when the line added it, or was merged into the last one. When they
are not, the last header becomes longer than in the unfolded block. A header that is not the last
any more gets no shorter without that, so the two lists never agree again.
-/

namespace ThreadIpc.HttpUtils

section Condition

def Opens (field : Field) (earlier : List Field) : Prop :=
  isMultiLine field.key = true ∨ ∀ other ∈ earlier, strcasecmp other.key field.key = false

instance (field : Field) (earlier : List Field) : Decidable (Opens field earlier) :=
  inferInstanceAs (Decidable (_ ∨ _))

def lastOpening : List Field → Option Field
  | [] => none
  | field :: earlier => if Opens field earlier then some field else lastOpening earlier

def InPlace (field : Field) (earlier : List Field) : Prop :=
  (∀ text ∈ field.texts, text = []) ∨ Opens field earlier ∨
    strcasecmp field.key host = false ∧ field.value ≠ [] ∧
      ∃ last ∈ lastOpening earlier, strcasecmp last.key field.key = true

def FoldsInPlace (earlier : List Field) : List Field → Prop
  | [] => True
  | field :: rest => InPlace field earlier ∧ FoldsInPlace (field :: earlier) rest

end Condition

section Names

def lower (name : CString) : CString := name.map tolower

theorem strcasecmp_iff (name key : CString) : strcasecmp name key = true ↔ lower name = lower key :=
  beq_iff_eq

theorem isMultiLine_congr {name key : CString} (same : lower name = lower key) :
    isMultiLine name = isMultiLine key := by
  unfold lower at same
  rw [isMultiLine, isMultiLine, strcasecmp, strcasecmp, strcasecmp, strcasecmp, same]

def openedNames : List Field → List CString
  | [] => []
  | field :: earlier =>
      if Opens field earlier then openedNames earlier ++ [lower field.key] else openedNames earlier

theorem exists_of_not_opens {field : Field} {earlier : List Field}
    (merges : ¬ Opens field earlier) :
    ∃ other ∈ earlier, strcasecmp other.key field.key = true := by
  rw [Opens, not_or] at merges
  by_contra absent
  refine merges.2 fun other member => ?_
  exact Bool.of_not_eq_true fun found => absent ⟨other, member, found⟩

theorem mem_openedNames {earlier : List Field} {key : CString} :
    lower key ∈ openedNames earlier ↔ ∃ other ∈ earlier, strcasecmp other.key key = true := by
  induction earlier generalizing key with
  | nil => simp [openedNames]
  | cons field earlier ih =>
      rw [openedNames, List.exists_mem_cons_iff, ← ih]
      split
      · rw [List.mem_append, List.mem_singleton, strcasecmp_iff, or_comm, eq_comm]
      · rename_i merges
        refine ⟨.inr, ?_⟩
        rintro (same | member)
        · rw [← (strcasecmp_iff _ _).mp same]
          exact ih.mpr (exists_of_not_opens merges)
        · exact member

theorem openedNames_single {earlier : List Field} {front : List CString} {key : CString}
    (names : openedNames earlier = front ++ [lower key]) (single : isMultiLine key = false) :
    lower key ∉ front := by
  induction earlier with
  | nil =>
      have impossible : front ++ [lower key] ≠ [] := List.append_ne_nil_of_right_ne_nil _
        (List.cons_ne_nil _ _)
      exact absurd names.symm impossible
  | cons field earlier ih =>
      rw [openedNames] at names
      split at names
      · rename_i opens
        obtain ⟨rfl, same⟩ := List.append_inj' names rfl
        have sameKey : lower field.key = lower key := List.head_eq_of_cons_eq same
        rw [← sameKey, mem_openedNames]
        rintro ⟨other, member, found⟩
        rcases opens with multi | fresh
        · rw [isMultiLine_congr sameKey, single] at multi
          cases multi
        · rw [fresh other member] at found
          cases found
      · exact ih names

theorem openedNames_getLast? (earlier : List Field) :
    (openedNames earlier).getLast? = (lastOpening earlier).map fun field => lower field.key := by
  induction earlier with
  | nil => rfl
  | cons field earlier ih =>
      rw [openedNames, lastOpening]
      split
      · exact List.getLast?_concat
      · exact ih

end Names

section Place
variable {earlier : List Field} {names : List CString}

theorem opens_iff (tracks : names.map lower = openedNames earlier) (field : Field) :
    placeOf names field.key = .new ↔ Opens field earlier := by
  rw [placeOf_new_iff]
  refine or_congr_right ?_
  have mem_iff : lower field.key ∈ names.map lower ↔
      ∃ other ∈ earlier, strcasecmp other.key field.key = true := by
    rw [tracks]
    exact mem_openedNames
  constructor
  · intro absent other member
    refine Bool.of_not_eq_true fun found => ?_
    obtain ⟨name, inNames, same⟩ := List.mem_map.mp (mem_iff.mpr ⟨other, member, found⟩)
    have matches_ := (strcasecmp_iff name field.key).mpr same
    rw [absent name inNames] at matches_
    cases matches_
  · intro absent name member
    refine Bool.of_not_eq_true fun found => ?_
    have inNames : lower name ∈ names.map lower := List.mem_map.mpr ⟨name, member, rfl⟩
    rw [(strcasecmp_iff _ _).mp found] at inNames
    obtain ⟨other, inEarlier, same⟩ := mem_iff.mp inNames
    rw [absent other inEarlier] at same
    cases same

theorem merged_last_iff (tracks : names.map lower = openedNames earlier) {field : Field} {i : Nat}
    (place : placeOf names field.key = .merged i) :
    i + 1 = names.length ↔
      ∃ last ∈ lastOpening earlier, strcasecmp last.key field.key = true := by
  obtain ⟨single, -, name, at_, found⟩ := placeOf_merged place
  have same := (strcasecmp_iff _ _).mp found
  have last_iff : (∃ last ∈ lastOpening earlier, strcasecmp last.key field.key = true) ↔
      (names.map lower).getLast? = some (lower field.key) := by
    rw [tracks, openedNames_getLast?, Option.map_eq_some_iff]
    exact exists_congr fun last => and_congr_right fun _ => strcasecmp_iff _ _
  rw [last_iff]
  cases names using List.reverseRecOn with
  | nil => cases at_
  | append_singleton front last =>
      rw [List.length_append, List.length_singleton, List.map_append, List.map_singleton,
        List.getLast?_concat, Option.some.injEq]
      constructor
      · intro here
        have atLast : i = front.length := Nat.succ.inj here
        rw [atLast, List.getElem?_concat_length] at at_
        cases at_
        exact same
      · intro sameLast
        by_contra before
        obtain ⟨inside, -⟩ := List.getElem?_eq_some_iff.mp at_
        rw [List.length_append, List.length_singleton] at inside
        have inFront : i < front.length := by omega
        rw [List.getElem?_append_left inFront] at at_
        rw [List.map_append, List.map_singleton, sameLast] at tracks
        refine openedNames_single tracks.symm single ?_
        rw [← same]
        exact List.mem_map_of_mem (List.mem_of_getElem? at_)

def GoodPlace (names : List CString) (field : Field) : Prop :=
  match placeOf names field.key with
  | .new => True
  | .merged i => i + 1 = names.length ∧ field.value ≠ []
  | .ignored => False

theorem inPlace_iff (tracks : names.map lower = openedNames earlier) (field : Field) :
    InPlace field earlier ↔ (∀ text ∈ field.texts, text = []) ∨ GoodPlace names field := by
  refine or_congr_right ?_
  rw [← opens_iff tracks, GoodPlace]
  cases place : placeOf names field.key with
  | new => exact iff_of_true (.inl rfl) trivial
  | merged i =>
      obtain ⟨-, notHost, -⟩ := placeOf_merged place
      have last_iff := merged_last_iff tracks place
      constructor
      · rintro (new | ⟨-, nonempty, last⟩)
        · cases new
        · exact ⟨last_iff.mpr last, nonempty⟩
      · rintro ⟨last, nonempty⟩
        exact .inr ⟨notHost, nonempty, last_iff.mp last⟩
  | ignored =>
      refine iff_of_false ?_ id
      rintro (new | ⟨notHost, -⟩)
      · cases new
      · rw [(placeOf_ignored place).1] at notHost
        cases notHost

theorem tracks_after (tracks : names.map lower = openedNames earlier) (field : Field) :
    (namesAfter names field.key).map lower = openedNames (field :: earlier) := by
  rw [openedNames, namesAfter]
  have opens := opens_iff tracks field
  cases place : placeOf names field.key with
  | new =>
      rw [if_pos (opens.mp place), List.map_append, tracks]
      rfl
  | merged i =>
      rw [if_neg fun new => by cases place.symm.trans (opens.mpr new)]
      obtain ⟨-, -, name, at_, found⟩ := placeOf_merged place
      obtain ⟨inside, rfl⟩ := List.getElem?_eq_some_iff.mp at_
      show (names.set i field.key).map lower = openedNames earlier
      rw [List.map_set, ← (strcasecmp_iff _ _).mp found, ← List.map_set, List.set_getElem_self,
        tracks]
  | ignored =>
      rw [if_neg fun new => by cases place.symm.trans (opens.mpr new)]
      exact tracks

theorem tracks_enterField {entries : List Entry}
    (tracks : (entries.map Prod.fst).map lower = openedNames earlier) (field : Field) :
    ((enterField entries field).map Prod.fst).map lower = openedNames (field :: earlier) := by
  rw [enterField_names]
  exact tracks_after tracks field

end Place

section Joined

def added (texts : List CString) : Nat :=
  (texts.map fun text => if text = [] then 0 else text.length + 1).sum

theorem joined_nil (value : CString) : joined value [] = value := by
  rw [joined, List.append_nil, separatorFor, if_neg fun both => both.2 rfl, List.append_nil]

theorem nil_joined (text : CString) : joined [] text = text := by
  rw [joined, separatorFor, if_neg fun both => both.1 rfl]
  rfl

theorem joined_append {value : CString} (nonempty : value ≠ []) (front text : CString) :
    joined (front ++ value) text = front ++ joined value text := by
  have separator : separatorFor (front ++ value) text = separatorFor value text := by
    unfold separatorFor
    simp only [ne_eq, List.append_eq_nil_iff, nonempty, and_false, not_false_eq_true]
  rw [joined, joined, separator, List.append_assoc, List.append_assoc, List.append_assoc]

theorem joined_ne_nil {value : CString} (nonempty : value ≠ []) (text : CString) :
    joined value text ≠ [] :=
  List.append_ne_nil_of_left_ne_nil (List.append_ne_nil_of_left_ne_nil nonempty _) _

theorem foldl_joined_append {value : CString} (nonempty : value ≠ []) (front : CString)
    (texts : List CString) :
    texts.foldl joined (front ++ value) = front ++ texts.foldl joined value := by
  induction texts generalizing value with
  | nil => rfl
  | cons text rest ih =>
      rw [List.foldl_cons, joined_append nonempty, ih (joined_ne_nil nonempty text),
        List.foldl_cons]

theorem foldl_joined_empty {texts : List CString} (empty : ∀ text ∈ texts, text = [])
    (value : CString) : texts.foldl joined value = value := by
  induction texts with
  | nil => rfl
  | cons text rest ih =>
      rw [List.foldl_cons, empty text List.mem_cons_self, joined_nil]
      exact ih fun other member => empty other (List.mem_cons_of_mem _ member)

theorem added_cons (text : CString) (rest : List CString) :
    added (text :: rest) = (if text = [] then 0 else text.length + 1) + added rest :=
  List.sum_cons

theorem length_joined {value : CString} (nonempty : value ≠ []) (text : CString) :
    (joined value text).length = value.length + if text = [] then 0 else text.length + 1 := by
  rw [joined, List.length_append, List.length_append, separatorFor]
  by_cases empty : text = []
  · rw [if_neg fun both => both.2 empty, if_pos empty, empty]
    rfl
  · rw [if_pos ⟨nonempty, empty⟩, if_neg empty, List.length_singleton]
    omega

theorem length_foldl_joined (value : CString) (texts : List CString) :
    (texts.foldl joined value).length =
      value.length + if value.length = 0 then added texts - 1 else added texts := by
  induction texts generalizing value with
  | nil => exact (ite_self _).symm ▸ rfl
  | cons text rest ih =>
      rw [List.foldl_cons, ih, added_cons]
      by_cases empty : value = []
      · rw [empty, nil_joined]
        by_cases noText : text = []
        · rw [noText, if_pos rfl]
          simp
        · have some_ : text.length ≠ 0 := fun zero => noText (List.length_eq_zero_iff.mp zero)
          rw [if_neg some_, List.length_nil, if_pos rfl, if_neg noText]
          omega
      · have some_ : value.length ≠ 0 := fun zero => empty (List.length_eq_zero_iff.mp zero)
        have longer : (joined value text).length ≠ 0 := fun zero =>
          joined_ne_nil empty text (List.length_eq_zero_iff.mp zero)
        rw [if_neg longer, length_joined empty, if_neg some_, Nat.add_assoc]

theorem added_eq_zero_iff (texts : List CString) :
    added texts = 0 ↔ ∀ text ∈ texts, text = [] := by
  induction texts with
  | nil => simp [added]
  | cons text rest ih =>
      rw [added_cons, List.forall_mem_cons, ← ih]
      split
      · rename_i empty
        simp [empty]
      · rename_i nonempty
        refine iff_of_false ?_ fun both => nonempty both.1
        omega

theorem added_ne_one (texts : List CString) : added texts ≠ 1 := by
  induction texts with
  | nil => exact Nat.zero_ne_one
  | cons text rest ih =>
      rw [added_cons]
      split
      · rwa [Nat.zero_add]
      · rename_i nonempty
        have some_ : text.length ≠ 0 := fun zero => nonempty (List.length_eq_zero_iff.mp zero)
        omega

end Joined

section Lengths

def lengthAt (entries : List Entry) (j : Nat) : Nat := (entries[j]?.map (·.2.length)).getD 0

theorem lengthAt_concat (front : List Entry) (key value : CString) (j : Nat) :
    lengthAt (front ++ [(key, value)]) j =
      if j = front.length then value.length else lengthAt front j := by
  unfold lengthAt
  rcases lt_trichotomy j front.length with before | rfl | after
  · rw [List.getElem?_append_left before, if_neg before.ne]
  · rw [List.getElem?_concat_length, if_pos rfl]
    rfl
  · rw [if_neg after.ne', List.getElem?_eq_none after.le, List.getElem?_eq_none]
    rw [List.length_append, List.length_singleton]
    exact after

theorem lengthAt_of_le {entries : List Entry} {j : Nat} (beyond : entries.length ≤ j) :
    lengthAt entries j = 0 := by
  rw [lengthAt, List.getElem?_eq_none beyond]
  rfl

theorem lengthAt_merge {entries : List Entry} {i : Nat} (inside : i < entries.length)
    (key value : CString) (j : Nat) :
    lengthAt (entries.modify i fun entry => (key, entry.2 ++ [comma] ++ value)) j =
      lengthAt entries j + if j = i then 1 + value.length else 0 := by
  unfold lengthAt
  rw [List.getElem?_modify]
  by_cases here : j = i
  · subst here
    rw [List.getElem?_eq_getElem inside, if_pos rfl]
    simp [Nat.add_comm 1]
  · rw [if_neg here]
    simp [Ne.symm here]

theorem lengthAt_foldl_appendLast (entries : List Entry) (texts : List CString) (j : Nat) :
    lengthAt (texts.foldl appendLast entries) j = lengthAt entries j +
      if j + 1 = entries.length then
        if lengthAt entries j = 0 then added texts - 1 else added texts
      else 0 := by
  cases entries using List.reverseRecOn with
  | nil =>
      rw [foldl_appendLast_nil]
      rfl
  | append_singleton front last =>
      obtain ⟨key, value⟩ := last
      rw [foldl_appendLast_concat, lengthAt_concat, lengthAt_concat, List.length_append,
        List.length_singleton]
      by_cases atLast : j = front.length
      · rw [if_pos atLast, if_pos atLast, if_pos (congrArg (· + 1) atLast), length_foldl_joined]
      · rw [if_neg atLast, if_neg fun same => atLast (Nat.succ.inj same), Nat.add_zero]
        exact (if_neg atLast).symm

end Lengths

section InPlace

theorem enterField_new {entries : List Entry} {field : Field}
    (place : placeOf (entries.map Prod.fst) field.key = .new) :
    enterField entries field =
      entries ++ [(field.key, field.texts.foldl joined field.value)] := by
  rw [enterField, enter, place]
  exact foldl_appendLast_concat ..

theorem enter_new {entries : List Entry} {key : CString} (value : CString)
    (place : placeOf (entries.map Prod.fst) key = .new) :
    enter entries key value = entries ++ [(key, value)] := by
  rw [enter, place]

theorem foldl_appendLast_empty {texts : List CString} (empty : ∀ text ∈ texts, text = [])
    (entries : List Entry) : texts.foldl appendLast entries = entries := by
  cases entries using List.reverseRecOn with
  | nil => exact foldl_appendLast_nil texts
  | append_singleton front last =>
      obtain ⟨key, value⟩ := last
      rw [foldl_appendLast_concat, foldl_joined_empty empty]

theorem enterField_inPlace {entries : List Entry} {field : Field}
    (inPlace : (∀ text ∈ field.texts, text = []) ∨ GoodPlace (entries.map Prod.fst) field) :
    enterField entries field = enterField entries field.unfold := by
  rw [enterField_unfold]
  rcases inPlace with empty | good
  · rw [enterField, foldl_appendLast_empty empty, foldl_joined_empty empty]
  · unfold GoodPlace at good
    cases place : placeOf (entries.map Prod.fst) field.key with
    | new => rw [enterField_new place, enter_new _ place]
    | merged i =>
        rw [place] at good
        obtain ⟨last, nonempty⟩ := good
        rw [enterField, enter, enter, place]
        cases entries using List.reverseRecOn with
        | nil => cases last
        | append_singleton front entry =>
            rw [List.length_map, List.length_append, List.length_singleton] at last
            have atLast : i = front.length := Nat.succ.inj last
            subst atLast
            simp only [modify_concat]
            rw [foldl_appendLast_concat, foldl_joined_append nonempty]
    | ignored =>
        rw [place] at good
        exact good.elim

theorem foldl_enterField_inPlace {earlier fields : List Field} {entries : List Entry}
    (tracks : (entries.map Prod.fst).map lower = openedNames earlier)
    (inPlace : FoldsInPlace earlier fields) :
    fields.foldl enterField entries = (fields.map Field.unfold).foldl enterField entries := by
  induction fields generalizing earlier entries with
  | nil => rfl
  | cons field rest ih =>
      have here := enterField_inPlace ((inPlace_iff tracks field).mp inPlace.1)
      rw [List.foldl_cons, List.map_cons, List.foldl_cons, ← here]
      exact ih (tracks_enterField tracks field) inPlace.2

end InPlace

section Ahead

structure Ahead (c u : List Entry) : Prop where
  names : c.map Prod.fst = u.map Prod.fst
  last : ∀ j, j + 1 = c.length → lengthAt u j ≤ lengthAt c j

def Longer (c u : List Entry) : Prop := ∃ j, lengthAt u j < lengthAt c j

variable {c u : List Entry} {field : Field}

theorem Ahead.length_eq (ahead : Ahead c u) : c.length = u.length := by
  have lengths := congrArg List.length ahead.names
  rwa [List.length_map, List.length_map] at lengths

theorem enterField_same_names (ahead : Ahead c u) (field : Field) :
    (enterField c field).map Prod.fst = (enterField u field.unfold).map Prod.fst := by
  rw [enterField_names, enterField_names, ahead.names, field.unfold_key]

theorem lengths_new (ahead : Ahead c u) (place : placeOf (c.map Prod.fst) field.key = .new)
    (j : Nat) : (lengthAt (enterField c field) j = lengthAt (enterField u field.unfold) j ∧
        c.length ≤ j) ∨
      (lengthAt (enterField c field) j = lengthAt c j ∧
        lengthAt (enterField u field.unfold) j = lengthAt u j ∧ j < c.length) := by
  have placeU := place
  rw [ahead.names] at placeU
  rw [enterField_unfold, enterField_new place, enter_new _ placeU, lengthAt_concat,
    lengthAt_concat, ← ahead.length_eq]
  rcases lt_trichotomy j c.length with before | here | after
  · exact .inr ⟨if_neg before.ne, if_neg before.ne, before⟩
  · exact .inl ⟨by rw [if_pos here, if_pos here], here.ge⟩
  · refine .inl ⟨?_, after.le⟩
    rw [if_neg after.ne', if_neg after.ne', lengthAt_of_le after.le,
      lengthAt_of_le (ahead.length_eq ▸ after.le)]

theorem lengths_merged (ahead : Ahead c u) {i : Nat}
    (place : placeOf (c.map Prod.fst) field.key = .merged i) (j : Nat) :
    i < c.length ∧
    (lengthAt (enterField c field) j =
      (lengthAt c j + if j = i then 1 + field.value.length else 0) +
        if j + 1 = c.length then
          if (lengthAt c j + if j = i then 1 + field.value.length else 0) = 0 then
            added field.texts - 1 else added field.texts
        else 0) ∧
    lengthAt (enterField u field.unfold) j = lengthAt u j +
      if j = i then 1 + (field.value.length + if field.value.length = 0 then added field.texts - 1
        else added field.texts) else 0 := by
  have placeU := place
  rw [ahead.names] at placeU
  obtain ⟨-, -, name, at_, -⟩ := placeOf_merged place
  obtain ⟨inside, -⟩ := List.getElem?_eq_some_iff.mp at_
  rw [List.length_map] at inside
  refine ⟨inside, ?_, ?_⟩
  · rw [enterField, enter, place, lengthAt_foldl_appendLast, lengthAt_merge inside,
      List.length_modify]
  · rw [enterField_unfold, enter, placeU, ← length_foldl_joined]
    exact lengthAt_merge (ahead.length_eq ▸ inside) _ _ _

theorem lengths_ignored (ahead : Ahead c u)
    (place : placeOf (c.map Prod.fst) field.key = .ignored) (j : Nat) :
    0 < c.length ∧
    (lengthAt (enterField c field) j = lengthAt c j + if j + 1 = c.length then
      if lengthAt c j = 0 then added field.texts - 1 else added field.texts else 0) ∧
    lengthAt (enterField u field.unfold) j = lengthAt u j := by
  have placeU := place
  rw [ahead.names] at placeU
  have nonempty := (placeOf_ignored place).2
  refine ⟨?_, ?_, ?_⟩
  · rw [List.length_pos_iff]
    rintro rfl
    exact nonempty rfl
  · rw [enterField, enter, place, lengthAt_foldl_appendLast]
  · rw [enterField_unfold, enter, placeU]

theorem namesAfter_length (entries : List Entry) (field : Field) :
    (enterField entries field).length = (namesAfter (entries.map Prod.fst) field.key).length := by
  rw [← enterField_names, List.length_map]

theorem Ahead.step (ahead : Ahead c u) (field : Field) :
    Ahead (enterField c field) (enterField u field.unfold) := by
  refine ⟨enterField_same_names ahead field, ?_⟩
  intro j last
  rw [namesAfter_length, namesAfter] at last
  cases place : placeOf (c.map Prod.fst) field.key with
  | new =>
      rw [place] at last
      have atEnd : j + 1 = c.length + 1 := by simpa using last
      rcases lengths_new ahead place j with ⟨same, -⟩ | ⟨-, -, inside⟩
      · exact same.ge
      · omega
  | merged i =>
      rw [place] at last
      have atEnd : j + 1 = c.length := by simpa using last
      obtain ⟨inside, lengthC, lengthU⟩ := lengths_merged ahead place j
      have before := ahead.last j atEnd
      rw [lengthC, lengthU, if_pos atEnd]
      split_ifs <;> omega
  | ignored =>
      rw [place] at last
      have atEnd : j + 1 = c.length := by simpa using last
      obtain ⟨nonempty, lengthC, lengthU⟩ := lengths_ignored ahead place j
      have before := ahead.last j atEnd
      rw [lengthC, lengthU]
      exact Nat.le_add_right_of_le before

theorem Longer.of_elsewhere (ahead : Ahead c u)
    (some_ : ¬ ∀ text ∈ field.texts, text = [])
    (bad : ¬ GoodPlace (c.map Prod.fst) field) :
    Longer (enterField c field) (enterField u field.unfold) := by
  have grows : added field.texts ≠ 0 := fun zero => some_ ((added_eq_zero_iff _).mp zero)
  have notOne := added_ne_one field.texts
  rw [GoodPlace] at bad
  refine ⟨c.length - 1, ?_⟩
  cases place : placeOf (c.map Prod.fst) field.key with
  | new =>
      rw [place] at bad
      exact absurd trivial bad
  | merged i =>
      rw [place, List.length_map, not_and_or, not_not] at bad
      obtain ⟨inside, lengthC, lengthU⟩ := lengths_merged ahead place (c.length - 1)
      have atEnd : c.length - 1 + 1 = c.length := by omega
      have before := ahead.last _ atEnd
      rw [lengthC, lengthU, if_pos atEnd]
      by_cases here : c.length - 1 = i
      · have empty : field.value.length = 0 :=
          List.length_eq_zero_iff.mpr (bad.resolve_left (absurd (by omega)))
        rw [if_pos here, if_pos here, if_pos empty, if_neg (by omega)]
        omega
      · rw [if_neg here, if_neg here]
        split_ifs <;> omega
  | ignored =>
      obtain ⟨nonempty, lengthC, lengthU⟩ := lengths_ignored ahead place (c.length - 1)
      have atEnd : c.length - 1 + 1 = c.length := by omega
      have before := ahead.last _ atEnd
      rw [lengthC, lengthU, if_pos atEnd]
      split_ifs <;> omega

theorem Longer.step (ahead : Ahead c u) (longer : Longer c u) (field : Field) :
    Longer (enterField c field) (enterField u field.unfold) := by
  obtain ⟨j, more⟩ := longer
  cases place : placeOf (c.map Prod.fst) field.key with
  | new =>
      refine ⟨j, ?_⟩
      rcases lengths_new ahead place j with ⟨-, beyond⟩ | ⟨lengthC, lengthU, -⟩
      · rw [lengthAt_of_le beyond] at more
        exact absurd more (Nat.not_lt_zero _)
      · rwa [lengthC, lengthU]
  | merged i =>
      by_cases bad : (¬ ∀ text ∈ field.texts, text = []) ∧ ¬ GoodPlace (c.map Prod.fst) field
      · exact Longer.of_elsewhere ahead bad.1 bad.2
      · rw [not_and_or, not_not, not_not, ← added_eq_zero_iff, GoodPlace, place,
          List.length_map] at bad
        refine ⟨j, ?_⟩
        obtain ⟨inside, lengthC, lengthU⟩ := lengths_merged ahead place j
        rw [lengthC, lengthU]
        rcases bad with nothing | ⟨atEnd, nonempty⟩
        · rw [nothing]
          split_ifs <;> omega
        · have some_ : field.value.length ≠ 0 := fun zero =>
            nonempty (List.length_eq_zero_iff.mp zero)
          rw [if_neg some_]
          split_ifs <;> omega
  | ignored =>
      obtain ⟨nonempty, lengthC, lengthU⟩ := lengths_ignored ahead place j
      refine ⟨j, ?_⟩
      rw [lengthC, lengthU]
      exact Nat.lt_add_right _ more

theorem foldl_longer {earlier fields : List Field}
    (tracks : (c.map Prod.fst).map lower = openedNames earlier) (ahead : Ahead c u)
    (bad : Longer c u ∨ ¬ FoldsInPlace earlier fields) :
    Longer (fields.foldl enterField c) ((fields.map Field.unfold).foldl enterField u) := by
  induction fields generalizing earlier c u with
  | nil => exact bad.resolve_right (absurd trivial)
  | cons field rest ih =>
      refine ih (tracks_enterField tracks field) (ahead.step field) ?_
      rcases bad with longer | bad
      · exact .inl (longer.step ahead field)
      · rw [FoldsInPlace, not_and_or, inPlace_iff tracks, not_or] at bad
        rcases bad with ⟨some_, place⟩ | later
        · exact .inl (Longer.of_elsewhere ahead some_ place)
        · exact .inr later

end Ahead

theorem foldl_enterField_iff (fields : List Field) :
    fields.foldl enterField [] = (fields.map Field.unfold).foldl enterField [] ↔
      FoldsInPlace [] fields := by
  have tracks : (([] : List Entry).map Prod.fst).map lower = openedNames [] := rfl
  constructor
  · intro same
    by_contra bad
    have ahead : Ahead [] [] := ⟨rfl, fun _ _ => le_refl _⟩
    obtain ⟨j, more⟩ := foldl_longer tracks ahead (.inr bad)
    rw [same] at more
    exact absurd more (lt_irrefl _)
  · exact foldl_enterField_inPlace tracks

section Parsing

variable {platform : Platform}

def Parsed.headerList (parsed : Parsed) : Option KeyValueList :=
  parsed.headers.map HTTPHeaders.headers

theorem parseHTTPHeaders_headerList (block : HeaderBlock) (body : List UInt8)
    (accepted : block.Accepted body) :
    ∃ parsed, parseHTTPHeaders platform (some (block.document body)) (some .new) = some parsed ∧
      parsed.headerList = some (ofEntries (block.fields.foldl enterField [])) := by
  obtain ⟨started, empty, ran⟩ := parseHTTPHeaders_accepted .new accepted
  have start : started.headers = ofEntries [] := empty
  obtain ⟨headers, lines, list⟩ := setHeaderLines_fields block.fields start
  refine ⟨_, by rw [ran, lines]; rfl, ?_⟩
  rw [← list]
  rfl

theorem ofEntries_injective : Function.Injective ofEntries := by
  intro entries entries' same
  refine List.map_injective_iff.mpr ?_ same
  rintro ⟨key, value⟩ ⟨key', value'⟩ pair
  cases pair
  rfl

theorem parseHTTPHeaders_unfold_iff (platform : Platform) (block : HeaderBlock)
    (body : List UInt8) :
    ∃ folded unfolded,
      parseHTTPHeaders platform (some (block.document body)) (some .new) = some folded ∧
      parseHTTPHeaders platform (some (block.unfold.document body)) (some .new) = some unfolded ∧
      (folded.headerList = unfolded.headerList ↔
        ¬ block.Accepted body ∨ FoldsInPlace [] block.fields) := by
  by_cases accepted : block.Accepted body
  · obtain ⟨folded, ran, list⟩ := parseHTTPHeaders_headerList block body accepted
    obtain ⟨unfolded, ran', list'⟩ :=
      parseHTTPHeaders_headerList block.unfold body ((block.accepted_unfold body).mpr accepted)
    refine ⟨folded, unfolded, ran, ran', ?_⟩
    rw [list, list', Option.some.injEq, ofEntries_injective.eq_iff,
      or_iff_right (not_not.mpr accepted)]
    exact foldl_enterField_iff block.fields
  · have rejected : ¬ block.unfold.Accepted body := mt (block.accepted_unfold body).mp accepted
    exact ⟨_, _, parseHTTPHeaders_rejected .new accepted, parseHTTPHeaders_rejected .new rejected,
      iff_of_true rfl (.inl accepted)⟩

end Parsing

def fieldA : Field where
  line := ascii "A: 1"
  continuations := []
  isText := by decide
  hasColon := by decide
  unindented := rfl
  indented := not_indented_nil

def fieldB : Field where
  line := ascii "B: 2"
  continuations := []
  isText := by decide
  hasColon := by decide
  unindented := rfl
  indented := not_indented_nil

def fieldA' : Field where
  line := ascii "A: 3"
  continuations := [ascii " x"]
  isText := by decide
  hasColon := by decide
  unindented := rfl
  indented := by decide

def repeatedBlock : HeaderBlock := ⟨none, [fieldA, fieldB, fieldA']⟩

theorem continuation_reaches_other_header :
    repeatedBlock.document [] = ascii "A: 1\r\nB: 2\r\nA: 3\r\n x\r\n\r\n" ∧
    repeatedBlock.unfold.document [] = ascii "A: 1\r\nB: 2\r\nA: 3 x\r\n\r\n" ∧
    ∃ folded unfolded,
      parseHTTPHeaders .lp64 (some (repeatedBlock.document [])) (some .new) = some folded ∧
      parseHTTPHeaders .lp64 (some (repeatedBlock.unfold.document [])) (some .new) = some unfolded ∧
      folded.headerList =
        some [(ascii "A", some (ascii "1,3")), (ascii "B", some (ascii "2 x"))] ∧
      unfolded.headerList =
        some [(ascii "A", some (ascii "1,3 x")), (ascii "B", some (ascii "2"))] ∧
      folded.headerList ≠ unfolded.headerList := by
  have accepted : repeatedBlock.Accepted [] := by
    intro status member
    cases member
  obtain ⟨folded, ran, list⟩ := parseHTTPHeaders_headerList repeatedBlock [] accepted
  obtain ⟨unfolded, ran', list'⟩ := parseHTTPHeaders_headerList repeatedBlock.unfold []
    ((repeatedBlock.accepted_unfold []).mpr accepted)
  refine ⟨by decide, by decide, folded, unfolded, ran, ran', list.trans rfl, list'.trans rfl, ?_⟩
  rw [list, list']
  decide

end ThreadIpc.HttpUtils
