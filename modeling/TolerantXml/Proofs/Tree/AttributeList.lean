import Mathlib.Data.List.Basic
import Mathlib.Data.List.Induction
import Mathlib.Data.List.Nodup
import Mathlib.Data.List.TakeWhile
import TolerantXml.Token
import TolerantXml.Tree.Attribute

/-!
# Lists of attributes

The names and values among the tokens of a tag write attributes (`Attribute.occurrences`). A list of
attributes into which they are put one after another keeps the last of each name, in the order in
which the names first came (`Attribute.collect_eq`).
-/

namespace TolerantXml.Attribute

/-- The attribute that a name writes with the first value among the tokens behind it. -/
def written (name : Token) (between : List Token) : Attribute :=
  match between.find? (·.kind = .attributeValue) with
  | some value => (named name.text name.span).withValue value.text value.span
  | none => named name.text name.span

/-- The attributes that tokens write, one for each name: it has the value that follows the name
before the next one, if there is any. -/
def occurrences : List Token → List Attribute
  | [] => []
  | token :: tokens =>
    if token.kind = .attributeName then
      written token (tokens.takeWhile (·.kind ≠ .attributeName)) :: occurrences tokens
    else occurrences tokens

/-- The last attribute of each name, in the order in which the names come first. -/
def lastOfEach (attributes : List Attribute) : List Attribute :=
  (attributes.map (·.name)).eraseDups.filterMap fun name ↦ attributes.findRev? (·.name == name)

/-- The list into which attributes were put one after another. -/
def collect (attributes : List Attribute) : List Attribute := attributes.foldl put []

variable {attributes : List Attribute} {attr other : Attribute} {names : List Text}
  {front between : List Token} {token name value : Token}

/-! ### What tokens write -/

/-- Behind the last name nothing else is written. -/
theorem occurrences_append_name (isName : name.kind = .attributeName)
    (noName : ∀ token ∈ between, token.kind ≠ .attributeName) (front : List Token) :
    occurrences (front ++ name :: between) = occurrences front ++ [written name between] := by
  have whole : between.takeWhile (·.kind ≠ .attributeName) = between :=
    List.takeWhile_eq_self_iff.2 fun token mem ↦ by simpa using noName token mem
  have nothing : occurrences between = [] := by
    clear whole
    induction between with
    | nil => rfl
    | cons token between ih =>
      rw [occurrences, if_neg (noName token List.mem_cons_self),
        ih fun token mem ↦ noName token (List.mem_cons_of_mem _ mem)]
  induction front with
  | nil => simp only [List.nil_append, occurrences, isName, ↓reduceIte, whole, nothing]
  | cons first front ih =>
    have stops : (front ++ name :: between).takeWhile (·.kind ≠ .attributeName) =
        front.takeWhile (·.kind ≠ .attributeName) := by
      rw [List.takeWhile_append]
      split
      · next all =>
        rw [List.takeWhile_cons_of_neg (by simp [isName]), List.append_nil,
          (List.takeWhile_prefix _).eq_of_length all]
      · rfl
    rw [List.cons_append, occurrences, occurrences, stops, ih]
    split
    · rfl
    · rfl

/-- A token that is no part of an attribute writes nothing. -/
theorem occurrences_concat (notName : token.kind ≠ .attributeName)
    (notValue : token.kind ≠ .attributeValue) (tokens : List Token) :
    occurrences (tokens ++ [token]) = occurrences tokens := by
  induction tokens with
  | nil => simp only [List.nil_append, occurrences, notName, ↓reduceIte]
  | cons first tokens ih =>
    have same : written first ((tokens ++ [token]).takeWhile (·.kind ≠ .attributeName)) =
        written first (tokens.takeWhile (·.kind ≠ .attributeName)) := by
      rw [List.takeWhile_append]
      split
      · next all =>
        rw [(List.takeWhile_prefix _).eq_of_length all, written, written, List.find?_append,
          List.takeWhile_cons_of_pos (by simp [notName]), List.takeWhile_nil,
          List.find?_cons_of_neg (by simp [notValue]), List.find?_nil, Option.or_none]
      · rfl
    rw [List.cons_append, occurrences, occurrences, ih, same]

theorem written_nil (name : Token) : written name [] = named name.text name.span := rfl

/-- The first value behind a name is the one that it gets. -/
theorem written_concat (name : Token) (noValue : ∀ token ∈ between, token.kind ≠ .attributeValue)
    (isValue : value.kind = .attributeValue) :
    written name between = named name.text name.span ∧
      written name (between ++ [value]) =
        (named name.text name.span).withValue value.text value.span := by
  have nothing : between.find? (·.kind = .attributeValue) = none :=
    List.find?_eq_none.2 fun token mem ↦ by simpa using noValue token mem
  constructor
  · rw [written, nothing]
  · rw [written, List.find?_append, nothing, Option.none_or,
      List.find?_cons_of_pos (by simp [isValue])]

/-! ### Putting one attribute -/

theorem indexOf_cons (first : Attribute) (attributes : List Attribute) (name : Text) :
    indexOf (first :: attributes) name =
      if first.name = name then 0 else indexOf attributes name + 1 := by
  rw [indexOf, List.findIdx_cons, indexOf]
  by_cases same : first.name = name
  · simp [same]
  · simp [beq_false_of_ne same, same]

theorem put_cons (first : Attribute) (attributes : List Attribute) (attr : Attribute) :
    put (first :: attributes) attr =
      if first.name = attr.name then attr :: attributes else first :: put attributes attr := by
  rw [put, put, indexOf_cons]
  by_cases same : first.name = attr.name
  · simp [same]
  · simp only [same, ↓reduceIte, List.length_cons, Nat.add_lt_add_iff_right, List.set_cons_succ,
      List.cons_append]
    split
    · rfl
    · rfl

/-- An attribute that was put stands where its name does. -/
theorem getElem?_put (attributes : List Attribute) (attr : Attribute) :
    (put attributes attr)[indexOf attributes attr.name]? = some attr := by
  induction attributes with
  | nil => rfl
  | cons first attributes ih =>
    rw [put_cons, indexOf_cons]
    split
    · rfl
    · rw [List.getElem?_cons_succ, ih]

/-- What changes in an attribute that was put might have been put with it. -/
theorem modify_put (attributes : List Attribute) (attr : Attribute)
    {change : Attribute → Attribute} (same : (change attr).name = attr.name) :
    (put attributes attr).modify (indexOf attributes attr.name) change =
      put attributes (change attr) := by
  induction attributes with
  | nil => rfl
  | cons first attributes ih =>
    rw [put_cons, put_cons, indexOf_cons, same]
    split
    · rfl
    · rw [List.modify_succ_cons, ih]

theorem mem_of_mem_put (mem : attr ∈ put attributes other) : attr = other ∨ attr ∈ attributes := by
  rw [put] at mem
  split at mem
  · exact (List.mem_or_eq_of_mem_set mem).symm
  · exact (List.mem_append.1 mem).symm.imp_left List.mem_singleton.1

theorem mem_of_mem_modify {index : Nat} {change : Attribute → Attribute}
    (mem : attr ∈ attributes.modify index change) :
    attr ∈ attributes ∨ ∃ old ∈ attributes, attr = change old := by
  obtain ⟨place, atPlace⟩ := List.mem_iff_getElem?.1 mem
  rw [List.getElem?_modify, Option.map_eq_map, Option.map_eq_some_iff] at atPlace
  obtain ⟨old, isOld, rfl⟩ := atPlace
  have isOld := List.mem_of_getElem? isOld
  split
  · exact .inr ⟨old, isOld, rfl⟩
  · exact .inl isOld

/-- Where a name has its attribute, another one takes its place. -/
private theorem put_filterMap {entry entry' : Text → Option Attribute}
    (entries : ∀ name ∈ names, ∃ attr, entry name = some attr ∧ attr.name = name)
    (atName : entry' attr.name = some attr)
    (others : ∀ name, name ≠ attr.name → entry' name = entry name)
    (mem : attr.name ∈ names) (nodup : names.Nodup) :
    put (names.filterMap entry) attr = names.filterMap entry' := by
  induction names with
  | nil => cases mem
  | cons name names ih =>
    obtain ⟨first, isFirst, rfl⟩ := entries _ List.mem_cons_self
    obtain ⟨notMem, nodup⟩ := List.nodup_cons.1 nodup
    rw [List.filterMap_cons_some isFirst, put_cons]
    by_cases same : first.name = attr.name
    · have behind : names.filterMap entry = names.filterMap entry' :=
        List.filterMap_congr fun name mem ↦
          (others name fun isName ↦ notMem (same.trans isName.symm ▸ mem)).symm
      rw [if_pos same, behind, same, List.filterMap_cons_some atName]
    · have isBehind : attr.name ∈ names := (List.mem_cons.1 mem).resolve_left (Ne.symm same)
      rw [if_neg same, ih (fun name mem ↦ entries name (List.mem_cons_of_mem _ mem)) isBehind nodup,
        List.filterMap_cons_some ((others _ same).trans isFirst)]

/-- A name that no attribute has comes behind the attributes. -/
theorem put_of_not_mem (attributes : List Attribute) (attr : Attribute)
    (new : attr.name ∉ attributes.map (·.name)) :
    indexOf attributes attr.name = attributes.length ∧
      put attributes attr = attributes ++ [attr] := by
  have atEnd : indexOf attributes attr.name = attributes.length := by
    rw [indexOf, List.findIdx_eq_length]
    intro other mem
    rw [beq_eq_false_iff_ne]
    intro same
    exact new (List.mem_map.2 ⟨other, mem, same⟩)
  refine ⟨atEnd, ?_⟩
  rw [put, atEnd, if_neg (Nat.lt_irrefl _)]

/-! ### Putting one after another -/

private theorem findRev?_concat (attributes : List Attribute) (attr : Attribute) (name : Text) :
    (attributes ++ [attr]).findRev? (·.name == name) =
      if attr.name = name then some attr else attributes.findRev? (·.name == name) := by
  rw [List.findRev?_eq_find?_reverse, List.findRev?_eq_find?_reverse, List.reverse_concat]
  split
  · next same => exact List.find?_cons_of_pos (beq_iff_eq.2 same)
  · next differ => exact List.find?_cons_of_neg fun same ↦ differ (beq_iff_eq.1 same)

/-- A name of some attributes has a last one. -/
private theorem exists_findRev? {name : Text} (mem : name ∈ (attributes.map (·.name)).eraseDups) :
    ∃ attr ∈ attributes, attributes.findRev? (·.name == name) = some attr ∧ attr.name = name := by
  rw [List.mem_eraseDups, List.mem_map] at mem
  obtain ⟨attr, mem, rfl⟩ := mem
  rw [List.findRev?_eq_find?_reverse]
  cases found : attributes.reverse.find? (·.name == attr.name) with
  | none => simpa using List.find?_eq_none.1 found attr (List.mem_reverse.2 mem)
  | some last =>
    refine ⟨last, List.mem_reverse.1 (List.mem_of_find?_eq_some found), rfl, ?_⟩
    simpa using List.find?_some found

private theorem eraseDups_concat (names : List Text) (name : Text) :
    (names ++ [name]).eraseDups =
      if name ∈ names then names.eraseDups else names.eraseDups ++ [name] := by
  rw [List.eraseDups_append]
  split
  · next mem => simp [List.removeAll, mem]
  · next notMem => simp [List.removeAll, notMem, List.eraseDups_cons]

theorem nodup_eraseDups (names : List Text) : names.eraseDups.Nodup := by
  induction names using List.reverseRecOn with
  | nil => exact List.nodup_nil
  | append_singleton names name ih =>
    rw [eraseDups_concat]
    split
    · exact ih
    · next notMem =>
      refine List.nodup_append.2 ⟨ih, List.nodup_singleton name, fun other mem last isLast ↦ ?_⟩
      rintro rfl
      exact notMem (List.mem_singleton.1 isLast ▸ List.mem_eraseDups.1 mem)

/-- The names of the last attributes are those of all, each once. -/
theorem map_name_lastOfEach (attributes : List Attribute) :
    (lastOfEach attributes).map (·.name) = (attributes.map (·.name)).eraseDups := by
  have entries : ∀ name ∈ (attributes.map (·.name)).eraseDups, ∃ attr ∈ attributes,
      attributes.findRev? (·.name == name) = some attr ∧ attr.name = name :=
    fun _ mem ↦ exists_findRev? mem
  rw [lastOfEach]
  generalize (attributes.map (·.name)).eraseDups = names at entries
  induction names with
  | nil => rfl
  | cons name names ih =>
    obtain ⟨attr, -, isLast, rfl⟩ := entries _ List.mem_cons_self
    rw [List.filterMap_cons, isLast, List.map_cons,
      ih fun name mem ↦ entries name (List.mem_cons_of_mem _ mem)]

theorem mem_of_mem_lastOfEach (mem : attr ∈ lastOfEach attributes) : attr ∈ attributes := by
  obtain ⟨name, isName, isLast⟩ := List.mem_filterMap.1 mem
  obtain ⟨last, mem, isLast', -⟩ := exists_findRev? isName
  rw [Option.some.inj (isLast.symm.trans isLast')]
  exact mem

/-- Putting one more attribute makes it the last of its name. -/
theorem lastOfEach_concat (attributes : List Attribute) (attr : Attribute) :
    lastOfEach (attributes ++ [attr]) = put (lastOfEach attributes) attr := by
  have atName := (findRev?_concat attributes attr attr.name).trans (if_pos rfl)
  have others : ∀ name, name ≠ attr.name → (attributes ++ [attr]).findRev? (·.name == name) =
      attributes.findRev? (·.name == name) := fun name differ ↦
    (findRev?_concat attributes attr name).trans (if_neg (Ne.symm differ))
  rw [lastOfEach, List.map_append, List.map_singleton, eraseDups_concat]
  split
  · next mem =>
    refine (put_filterMap (fun name mem ↦ ?_) atName others (List.mem_eraseDups.2 mem)
      (nodup_eraseDups _)).symm
    obtain ⟨last, -, isLast⟩ := exists_findRev? mem
    exact ⟨last, isLast⟩
  · next notMem =>
    have before : (attributes.map (·.name)).eraseDups.filterMap (fun name ↦
        (attributes ++ [attr]).findRev? (·.name == name)) = lastOfEach attributes :=
      List.filterMap_congr fun name mem ↦
        others name fun isName ↦ notMem (isName ▸ List.mem_eraseDups.1 mem)
    have new : attr.name ∉ (lastOfEach attributes).map (·.name) := by
      rwa [map_name_lastOfEach, List.mem_eraseDups]
    rw [(put_of_not_mem _ attr new).2, List.filterMap_append, before, List.filterMap_cons, atName,
      List.filterMap_nil]

theorem collect_concat (attributes : List Attribute) (attr : Attribute) :
    collect (attributes ++ [attr]) = put (collect attributes) attr := by
  rw [collect, List.foldl_append]
  rfl

/-- A list into which attributes were put has the last of each name. -/
theorem collect_eq (attributes : List Attribute) : collect attributes = lastOfEach attributes := by
  induction attributes using List.reverseRecOn with
  | nil => rfl
  | append_singleton attributes attr ih => rw [collect_concat, ih, lastOfEach_concat]

end TolerantXml.Attribute
