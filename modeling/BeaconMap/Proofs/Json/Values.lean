import BeaconMap.Proofs.Json.Tokens
/-!
# Values read back

Written without blanks, a value is read back whole, and what follows it is left to whoever reads on
(`JsonReader.value_chars`). The reader stays within its fuel, two units for every character of the value. So the text of
a printable value says just this value (`JsonText.ofText_text`).
-/

namespace BeaconMap

/-- A written number begins with a minus or a digit. -/
theorem Numeral.exists_text_cons {n : Numeral} (h : n.Json) :
    ∃ c more, n.text.toList = c :: more ∧ (c = '-' ∨ c.isDigit = true) := by
  obtain ⟨d, whole, hwhole⟩ := List.exists_cons_of_ne_nil h.nonempty
  have hd : d.isDigit = true := h.whole d (hwhole ▸ List.mem_cons_self)
  rw [toList_text_parts, hwhole]
  cases n.negative with
  | true => exact ⟨_, _, rfl, .inl rfl⟩
  | false => exact ⟨_, _, rfl, .inr hd⟩

theorem JsonReader.not_isBlank {c : Char} (h : c = '-' ∨ c.isDigit = true) : isBlank c = false := by
  rw [Bool.eq_false_iff]
  intro hb
  simp only [isBlank, Bool.or_eq_true, beq_iff_eq] at hb
  rcases hb with ((rfl | rfl) | rfl) | rfl <;> rcases h with h | h <;> cases h

namespace JsonValue

mutual

/-- The value has a written form: its numbers are as JSON has them, and nothing of it is broken off. -/
def Printable : JsonValue → Prop
  | .null | .boolean _ | .string _ => True
  | .number n => n.Json
  | .array items closed => closed = true ∧ PrintableItems items
  | .object members closed => closed = true ∧ PrintableMembers members
  | .unpaired | .malformed => False

/-- All items have a written form. -/
def PrintableItems : List JsonValue → Prop
  | [] => True
  | item :: rest => Printable item ∧ PrintableItems rest

/-- All members have names and a written form. -/
def PrintableMembers : List (JsonName × JsonValue) → Prop
  | [] => True
  | (name, value) :: rest => (∃ s, name = .text s) ∧ Printable value ∧ PrintableMembers rest

end

theorem printableItems_iff (items : List JsonValue) : PrintableItems items ↔ ∀ item ∈ items, item.Printable := by
  induction items with
  | nil => simp [PrintableItems]
  | cons item rest ih => simp [PrintableItems, ih]

theorem printable_ofList {items : List JsonValue} (h : ∀ item ∈ items, item.Printable) : (ofList items).Printable :=
  ⟨rfl, (printableItems_iff items).2 h⟩

theorem printable_ofMembers {members : List (String × JsonValue)} (h : ∀ m ∈ members, m.2.Printable) :
    (ofMembers members).Printable := by
  refine ⟨rfl, ?_⟩
  induction members with
  | nil => trivial
  | cons m rest ih =>
    obtain ⟨hm, hrest⟩ := List.forall_mem_cons.1 h
    exact ⟨⟨m.1, rfl⟩, hm, ih hrest⟩

/-- A written value begins with a character that is neither a blank nor the end of a list. -/
theorem exists_chars_cons {v : JsonValue} (h : v.Printable) :
    ∃ c more, v.chars = c :: more ∧ JsonReader.isBlank c = false ∧ c ≠ ']' := by
  match v with
  | .null | .boolean true | .boolean false | .string _ | .array _ _ | .object _ _ =>
    exact ⟨_, _, rfl, by decide, by decide⟩
  | .number n =>
    obtain ⟨c, more, hchars, hc⟩ := n.exists_text_cons h
    exact ⟨c, more, hchars, JsonReader.not_isBlank hc, by rintro rfl; rcases hc with hc | hc <;> cases hc⟩

theorem itemChars_cons_cons (item next : JsonValue) (more : List JsonValue) :
    itemChars (item :: next :: more) = item.chars ++ ',' :: itemChars (next :: more) := by
  rw [itemChars]
  simp

theorem memberChars_cons_cons (name : JsonName) (v : JsonValue) (next : JsonName × JsonValue)
    (more : List (JsonName × JsonValue)) :
    memberChars ((name, v) :: next :: more) = nameText name ++ ':' :: (v.chars ++ ',' :: memberChars (next :: more)) := by
  rw [memberChars]
  simp

theorem exists_itemChars_cons {item : JsonValue} (h : item.Printable) (more : List JsonValue) :
    ∃ c text, itemChars (item :: more) = c :: text ∧ JsonReader.isBlank c = false ∧ c ≠ ']' := by
  obtain ⟨c, text, hchars, hc⟩ := exists_chars_cons h
  cases more with
  | nil => exact ⟨c, text, by rw [itemChars, hchars], hc⟩
  | cons next more => exact ⟨c, _, by rw [itemChars_cons_cons, hchars, List.cons_append], hc⟩

theorem exists_memberChars_cons {m : JsonName × JsonValue} (h : ∃ s, m.1 = .text s)
    (more : List (JsonName × JsonValue)) : ∃ text, memberChars (m :: more) = '"' :: text := by
  obtain ⟨name, v⟩ := m
  obtain ⟨s, rfl⟩ : ∃ s, name = .text s := h
  cases more with
  | nil => exact ⟨_, rfl⟩
  | cons next more => exact ⟨_, rfl⟩

end JsonValue

namespace JsonReader

open JsonValue

theorem skipBlanks_cons {c : Char} (h : isBlank c = false) (rest : List Char) : skipBlanks (c :: rest) = c :: rest := by
  rw [skipBlanks, List.dropWhile_cons, h]
  rfl

theorem skipBlanks_chars {v : JsonValue} (h : v.Printable) (rest : List Char) :
    skipBlanks (v.chars ++ rest) = v.chars ++ rest := by
  obtain ⟨c, more, hchars, hc, -⟩ := exists_chars_cons h
  rw [hchars, List.cons_append, skipBlanks_cons hc]

/-! ## One step of the reader -/

theorem value_string (fuel : Nat) (inner : List Char) : value (fuel + 1) ('"' :: inner) = string inner := by
  rw [value, skipBlanks_cons (by decide)]
  rfl

theorem value_array (fuel : Nat) {inner : List Char} (h : ∀ after, skipBlanks inner ≠ ']' :: after) :
    value (fuel + 1) ('[' :: inner) = (.array (items fuel inner).1 (items fuel inner).2.isSome, (items fuel inner).2) := by
  rw [value, skipBlanks_cons (by decide)]
  -- `h` excludes the first alternative.
  simp

theorem value_object (fuel : Nat) (inner : List Char) :
    value (fuel + 1) ('\x7b' :: '"' :: inner) =
      (.object (members fuel ('"' :: inner)).1 (members fuel ('"' :: inner)).2.isSome, (members fuel ('"' :: inner)).2) := by
  have hinner : skipBlanks ('"' :: inner) = '"' :: inner := skipBlanks_cons (by decide) inner
  rw [value, skipBlanks_cons (by decide)]
  simp [hinner]

theorem value_number (fuel : Nat) {c : Char} (h : c = '-' ∨ c.isDigit = true) (more : List Char) :
    value (fuel + 1) (c :: more) = number (c :: more) := by
  rw [value, skipBlanks_cons (not_isBlank h)]
  split <;> first | rfl | (rename_i heq; cases heq; rcases h with h | h <;> cases h)

theorem items_cons (fuel : Nat) {text rest : List Char} {item : JsonValue}
    (h : value fuel text = (item, some (',' :: rest))) :
    items (fuel + 1) text = (item :: (items fuel rest).1, (items fuel rest).2) := by
  rw [items, h]
  dsimp only [Option.map_some]
  rw [skipBlanks_cons (by decide)]
  rfl

theorem items_last (fuel : Nat) {text rest : List Char} {item : JsonValue}
    (h : value fuel text = (item, some (']' :: rest))) : items (fuel + 1) text = ([item], some rest) := by
  rw [items, h]
  dsimp only [Option.map_some]
  rw [skipBlanks_cons (by decide)]
  rfl

section
variable (fuel : Nat) {name : String} {inner text rest : List Char} {v : JsonValue}
  (hname : string inner = (.string name, some (':' :: text)))
include hname

theorem members_named :
    members (fuel + 1) ('"' :: inner) = match (value fuel text).2.map skipBlanks with
      | some (',' :: rest) => ((.text name, (value fuel text).1) :: (members fuel rest).1, (members fuel rest).2)
      | some ('\x7d' :: rest) => ([(.text name, (value fuel text).1)], some rest)
      | _ => ([(.text name, (value fuel text).1)], none) := by
  have hcolon : skipBlanks (':' :: text) = ':' :: text := skipBlanks_cons (by decide) text
  generalize hread : members (fuel + 1) ('"' :: inner) = read
  rw [members, skipBlanks_cons (by decide)] at hread
  simp only [hname, Option.map_some, hcolon] at hread
  exact hread.symm

theorem members_cons (h : value fuel text = (v, some (',' :: rest))) :
    members (fuel + 1) ('"' :: inner) = ((.text name, v) :: (members fuel rest).1, (members fuel rest).2) := by
  rw [members_named fuel hname, h]
  dsimp only [Option.map_some]
  rw [skipBlanks_cons (by decide)]
  rfl

theorem members_last (h : value fuel text = (v, some ('\x7d' :: rest))) :
    members (fuel + 1) ('"' :: inner) = ([(.text name, v)], some rest) := by
  rw [members_named fuel hname, h]
  dsimp only [Option.map_some]
  rw [skipBlanks_cons (by decide)]
  rfl

end

/-! ## Whole values -/

mutual

/-- A written value is read back, and what follows it is left. -/
theorem value_chars (v : JsonValue) (h : v.Printable) (fuel : Nat) (rest : List Char)
    (hfuel : 2 * v.chars.length ≤ fuel) (hrest : Ends rest) : value fuel (v.chars ++ rest) = (v, some rest) := by
  obtain ⟨fuel, rfl⟩ : ∃ f, fuel = f + 1 := by
    obtain ⟨c, more, hchars, -⟩ := exists_chars_cons h
    rw [hchars, List.length_cons] at hfuel
    exact ⟨fuel - 1, by omega⟩
  match v with
  | .null | .boolean true | .boolean false =>
    rw [value, skipBlanks_chars h]
    rfl
  | .string s =>
    obtain ⟨inner, htext, hinner⟩ := string_stringText s rest
    rw [chars, htext, value_string, hinner]
  | .number n =>
    obtain ⟨c, more, htext, hc⟩ := n.exists_text_cons h
    have hread := numeral?_text (n := n) h hrest
    rw [htext] at hread
    rw [chars, htext, List.cons_append, value_number _ hc, number, ← List.cons_append, hread]
  | .array [] closed =>
    obtain rfl : closed = true := h.1
    rw [value, skipBlanks_chars h]
    rfl
  | .array (item :: more) closed =>
    obtain ⟨rfl, hitems⟩ : closed = true ∧ PrintableItems (item :: more) := h
    have hnext : ∀ after, skipBlanks (itemChars (item :: more) ++ ']' :: rest) ≠ ']' :: after := by
      intro after heq
      obtain ⟨c, text, hchars, hc, hbracket⟩ := exists_itemChars_cons hitems.1 more
      rw [hchars, List.cons_append, skipBlanks_cons hc] at heq
      exact hbracket (List.cons.inj heq).1
    have hlength : 2 * (itemChars (item :: more)).length + 1 ≤ fuel := by
      rw [chars, List.length_append, List.length_cons, List.length_singleton] at hfuel
      omega
    have hread := items_chars (item :: more) (by simp) hitems fuel rest hlength
    rw [chars, List.cons_append, List.cons_append, List.append_assoc, List.singleton_append, value_array fuel hnext, hread]
    rfl
  | .object [] closed =>
    obtain rfl : closed = true := h.1
    rw [value, skipBlanks_chars h]
    rfl
  | .object (m :: more) closed =>
    obtain ⟨rfl, hmembers⟩ : closed = true ∧ PrintableMembers (m :: more) := h
    obtain ⟨inner, hinner⟩ := exists_memberChars_cons hmembers.1 more
    have hlength : 2 * (memberChars (m :: more)).length + 1 ≤ fuel := by
      rw [chars, List.length_append, List.length_cons, List.length_singleton] at hfuel
      omega
    have hread := members_chars (m :: more) (by simp) hmembers fuel rest hlength
    rw [hinner, List.cons_append] at hread
    rw [chars, hinner, List.cons_append, List.cons_append, List.cons_append, List.cons_append, List.append_assoc,
      List.singleton_append, value_object, hread]
    rfl

theorem items_chars (l : List JsonValue) (hne : l ≠ []) (h : PrintableItems l) (fuel : Nat) (rest : List Char)
    (hfuel : 2 * (itemChars l).length + 1 ≤ fuel) : items fuel (itemChars l ++ ']' :: rest) = (l, some rest) := by
  obtain ⟨fuel, rfl⟩ : ∃ f, fuel = f + 1 := ⟨fuel - 1, by omega⟩
  match l with
  | [item] =>
    rw [itemChars] at hfuel ⊢
    exact items_last fuel (value_chars item h.1 fuel _ (by omega) (ends_cons (by decide) rest))
  | item :: next :: more =>
    rw [itemChars_cons_cons, List.length_append, List.length_cons] at hfuel
    have hitem := value_chars item h.1 fuel (',' :: (itemChars (next :: more) ++ ']' :: rest)) (by omega)
      (ends_cons (by decide) _)
    rw [itemChars_cons_cons, List.append_assoc, List.cons_append, items_cons fuel hitem,
      items_chars (next :: more) (by simp) h.2 fuel rest (by omega)]

theorem members_chars (l : List (JsonName × JsonValue)) (hne : l ≠ []) (h : PrintableMembers l) (fuel : Nat)
    (rest : List Char) (hfuel : 2 * (memberChars l).length + 1 ≤ fuel) :
    members fuel (memberChars l ++ '\x7d' :: rest) = (l, some rest) := by
  obtain ⟨fuel, rfl⟩ : ∃ f, fuel = f + 1 := ⟨fuel - 1, by omega⟩
  match l with
  | [(name, v)] =>
    obtain ⟨⟨s, rfl⟩, hv, -⟩ := h
    rw [memberChars, nameText, List.length_append, List.length_cons] at hfuel
    obtain ⟨inner, htext, hinner⟩ := string_stringText s (':' :: (v.chars ++ '\x7d' :: rest))
    rw [memberChars, nameText, List.append_assoc, List.cons_append, htext]
    exact members_last fuel hinner (value_chars v hv fuel _ (by omega) (ends_cons (by decide) rest))
  | (name, v) :: next :: more =>
    obtain ⟨⟨s, rfl⟩, hv, hmore⟩ := h
    rw [memberChars_cons_cons, nameText, List.length_append, List.length_cons, List.length_append,
      List.length_cons] at hfuel
    obtain ⟨inner, htext, hinner⟩ :=
      string_stringText s (':' :: (v.chars ++ ',' :: (memberChars (next :: more) ++ '\x7d' :: rest)))
    have hvalue := value_chars v hv fuel (',' :: (memberChars (next :: more) ++ '\x7d' :: rest)) (by omega)
      (ends_cons (by decide) _)
    rw [memberChars_cons_cons, nameText, List.append_assoc, List.cons_append, List.append_assoc, List.cons_append, htext,
      members_cons fuel hinner hvalue, members_chars (next :: more) (by simp) hmore fuel rest (by omega)]

end

end JsonReader

/-- The text of a printable value says this value and nothing else. -/
theorem JsonText.ofText_text {v : JsonValue} (h : v.Printable) : JsonText.ofText v.text = ⟨v, true⟩ := by
  have hread := JsonReader.value_chars v h (2 * v.chars.length + 2) [] (by omega) JsonReader.ends_nil
  rw [List.append_nil] at hread
  unfold ofText JsonValue.text
  rw [String.toList_ofList]
  dsimp only
  rw [hread]
  rfl

end BeaconMap
