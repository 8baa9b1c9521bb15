import Leapfrog.Proofs.EscapedText
import Leapfrog.Proofs.NumberText

/-!
# The texts of documents

A document is read back from its text in any layout. The blanks of a layout stand only where the reader
skips them, and a number or a constant ends where the next character is none of a word. The reader
takes a character at every step, so that fuel beyond the length of the text is enough.
-/

namespace Leapfrog.Json

/-- Blanks and nothing else. -/
def IsBlanks (cs : List Char) : Prop := ∀ c ∈ cs, isBlank c = true

/-- Blanks are skipped. -/
theorem skipBlanks_append {blanks : List Char} (h : IsBlanks blanks) (cs : List Char) :
    skipBlanks (blanks ++ cs) = skipBlanks cs :=
  List.dropWhile_append_of_pos h

/-- Nothing is skipped in front of another character. -/
theorem skipBlanks_cons {c : Char} (hc : isBlank c = false) (cs : List Char) :
    skipBlanks (c :: cs) = c :: cs :=
  List.dropWhile_cons_of_neg (by rw [hc]; decide)

/-- What a layout puts in front of an item is blank. -/
theorem isBlanks_newline (layout : Layout) (depth : Nat) : IsBlanks (layout.newline depth) := by
  cases layout with
  | line => exact fun c hc => nomatch hc
  | indented width =>
    refine List.forall_mem_cons.mpr ⟨rfl, fun c hc => ?_⟩
    rw [List.eq_of_mem_replicate hc]
    rfl

/-- A separator is a comma and blanks. -/
theorem exists_separator_eq (layout : Layout) (depth : Nat) :
    ∃ blanks, IsBlanks blanks ∧ layout.separator depth = ',' :: blanks := by
  cases layout with
  | line => exact ⟨[' '], List.all_eq_true.mp rfl, rfl⟩
  | indented width => exact ⟨_, isBlanks_newline (.indented width) depth, rfl⟩

/-- A text in front of which a word ends. -/
def Ends (rest : List Char) : Prop := ∀ c ∈ rest.head?, isWordChar c = false

/-- Blanks and a bracket end a word. -/
theorem ends_append {blanks : List Char} (h : IsBlanks blanks) {c : Char} (hc : isWordChar c = false)
    (rest : List Char) : Ends (blanks ++ c :: rest) := by
  intro d hd
  cases blanks with
  | nil =>
    obtain rfl := Option.some_inj.mp hd
    exact hc
  | cons b blanks =>
    obtain rfl := Option.some_inj.mp hd
    have hblank := h b List.mem_cons_self
    simp only [isBlank, Bool.or_eq_true, decide_eq_true_eq] at hblank
    rcases hblank with ((rfl | rfl) | rfl) | rfl <;> rfl

/-- A word begins with a character that is not skipped and none of the others. -/
theorem IsWord.exists_eq {word : List Char} (h : IsWord word) :
    ∃ c cs, word = c :: cs ∧ isBlank c = false ∧ ∀ d, Json.isWordChar d = false → c ≠ d := by
  obtain ⟨c, cs, rfl⟩ := List.exists_cons_of_ne_nil h.ne_nil
  have hc := h.isWordChar c List.mem_cons_self
  have hother : ∀ d, Json.isWordChar d = false → c ≠ d := by
    rintro d hd rfl
    rw [hc] at hd
    cases hd
  refine ⟨c, cs, rfl, ?_, hother⟩
  simp [isBlank, hother ' ' rfl, hother '\n' rfl, hother '\r' rfl, hother '\t' rfl]

/-- A word is read up to its end. -/
theorem value?_word {word rest : List Char} (hword : IsWord word) (hrest : Ends rest) (fuel : Nat) :
    value? (fuel + 1) (word ++ rest) = (word? word).map (·, rest) := by
  have htake : (word ++ rest).takeWhile isWordChar = word ∧
      (word ++ rest).dropWhile isWordChar = rest := by
    rw [List.takeWhile_append_of_pos hword.isWordChar, List.dropWhile_append_of_pos hword.isWordChar]
    cases rest with
    | nil => simp
    | cons c rest => simp [hrest c rfl]
  obtain ⟨c, cs, rfl, hblank, hother⟩ := hword.exists_eq
  rw [List.cons_append] at htake ⊢
  unfold value?
  rw [skipBlanks_cons hblank]
  split
  · next heq => exact absurd (List.cons.inj heq).1 (hother _ rfl)
  · next heq => exact absurd (List.cons.inj heq).1 (hother _ rfl)
  · next heq => exact absurd (List.cons.inj heq).1 (hother _ rfl)
  · rw [htake.1, htake.2]

/-- Blanks in front of a value are skipped. -/
theorem value?_blanks {blanks : List Char} (h : IsBlanks blanks) (cs : List Char) (fuel : Nat) :
    value? fuel (blanks ++ cs) = value? fuel cs := by
  cases fuel with
  | zero => rfl
  | succ fuel =>
    unfold value?
    rw [skipBlanks_append h]

/-- Blanks in front of a member are skipped. -/
theorem pair?_blanks {blanks : List Char} (h : IsBlanks blanks) (cs : List Char) (fuel : Nat) :
    pair? fuel (blanks ++ cs) = pair? fuel cs := by
  cases fuel with
  | zero => rfl
  | succ fuel =>
    unfold pair?
    rw [skipBlanks_append h]

/-- A quoted text is read as a document. -/
theorem value?_text (s : String) (rest : List Char) (fuel : Nat) :
    value? (fuel + 1) (textChars s ++ rest) = some (.text s, rest) := by
  have happend : textChars s ++ rest = '"' :: (s.toList.flatMap charChars ++ '"' :: rest) := by
    simp [textChars]
  rw [happend]
  unfold value?
  rw [skipBlanks_cons rfl]
  change (text? _).map _ = _
  rw [text?_chars]
  rfl

/-- A member is read as its name and its value. -/
theorem pair?_chars (name : String) {value : Json} {body rest : List Char} {fuel : Nat}
    (hvalue : value? fuel body = some (value, rest)) :
    pair? (fuel + 1) (textChars name ++ (':' :: ' ' :: body)) = some ((name, value), rest) := by
  have happend : textChars name ++ (':' :: ' ' :: body) =
      '"' :: (name.toList.flatMap charChars ++ '"' :: ':' :: ' ' :: body) := by
    simp [textChars]
  have hblank : IsBlanks [' '] := List.all_eq_true.mp rfl
  have hspace : value? fuel (' ' :: body) = some (value, rest) :=
    (value?_blanks hblank body fuel).trans hvalue
  rw [happend]
  unfold pair?
  rw [skipBlanks_cons rfl]
  change (text? _).bind _ = _
  rw [text?_chars, Option.bind_some]
  dsimp only
  rw [skipBlanks_cons rfl]
  change (value? fuel (' ' :: body)).bind _ = _
  rw [hspace]
  rfl

/-- After an opening bracket the list ends, or its items follow. -/
theorem value?_bracket (body : List Char) (fuel : Nat) :
    value? (fuel + 1) ('[' :: body) =
      match skipBlanks body with
      | ']' :: rest => some (.list [], rest)
      | _ => (value? fuel body).bind fun (item, rest) =>
        (itemsTail? fuel rest).bind fun (items, rest) => some (.list (item :: items), rest) := by
  rw [value?, skipBlanks_cons rfl]
  rfl

/-- After an opening brace the record ends, or its members follow. -/
theorem value?_brace (body : List Char) (fuel : Nat) :
    value? (fuel + 1) ('{' :: body) =
      match skipBlanks body with
      | '}' :: rest => some (.record [], rest)
      | _ => (pair? fuel body).bind fun (first, rest) =>
        (membersTail? fuel rest).bind fun (members, rest) =>
          some (.record (first :: members), rest) := by
  rw [value?, skipBlanks_cons rfl]
  rfl

/-- A list is read item by item. -/
theorem value?_list_cons {item : Json} {items : List Json} {body tail rest : List Char} {fuel : Nat}
    (hopen : ∀ c ∈ (skipBlanks body).head?, c ≠ ']') (hitem : value? fuel body = some (item, tail))
    (hitems : itemsTail? fuel tail = some (items, rest)) :
    value? (fuel + 1) ('[' :: body) = some (.list (item :: items), rest) := by
  rw [value?_bracket]
  split
  · next heq => exact absurd rfl (hopen ']' (by rw [heq]; rfl))
  · rw [hitem, Option.bind_some]
    dsimp only
    rw [hitems]
    rfl

/-- A record is read member by member. -/
theorem value?_record_cons {first : String × Json} {members : List (String × Json)}
    {body tail rest : List Char} {fuel : Nat} (hopen : ∀ c ∈ (skipBlanks body).head?, c ≠ '}')
    (hfirst : pair? fuel body = some (first, tail))
    (hmembers : membersTail? fuel tail = some (members, rest)) :
    value? (fuel + 1) ('{' :: body) = some (.record (first :: members), rest) := by
  rw [value?_brace]
  split
  · next heq => exact absurd rfl (hopen '}' (by rw [heq]; rfl))
  · rw [hfirst, Option.bind_some]
    dsimp only
    rw [hmembers]
    rfl

/-- The items end at the closing bracket. -/
theorem itemsTail?_nil {blanks : List Char} (h : IsBlanks blanks) (rest : List Char) (fuel : Nat) :
    itemsTail? (fuel + 1) (blanks ++ ']' :: rest) = some ([], rest) := by
  unfold itemsTail?
  rw [skipBlanks_append h, skipBlanks_cons rfl]
  rfl

/-- The members end at the closing brace. -/
theorem membersTail?_nil {blanks : List Char} (h : IsBlanks blanks) (rest : List Char) (fuel : Nat) :
    membersTail? (fuel + 1) (blanks ++ '}' :: rest) = some ([], rest) := by
  unfold membersTail?
  rw [skipBlanks_append h, skipBlanks_cons rfl]
  rfl

/-- A further item follows a comma. -/
theorem itemsTail?_cons {item : Json} {items : List Json} {body tail rest : List Char} {fuel : Nat}
    (hitem : value? fuel body = some (item, tail))
    (hitems : itemsTail? fuel tail = some (items, rest)) :
    itemsTail? (fuel + 1) (',' :: body) = some (item :: items, rest) := by
  rw [itemsTail?, skipBlanks_cons rfl]
  change (value? fuel body).bind _ = _
  rw [hitem]
  change (itemsTail? fuel tail).bind _ = _
  rw [hitems]
  rfl

/-- A further member follows a comma. -/
theorem membersTail?_cons {first : String × Json} {members : List (String × Json)}
    {body tail rest : List Char} {fuel : Nat} (hfirst : pair? fuel body = some (first, tail))
    (hmembers : membersTail? fuel tail = some (members, rest)) :
    membersTail? (fuel + 1) (',' :: body) = some (first :: members, rest) := by
  rw [membersTail?, skipBlanks_cons rfl]
  change (pair? fuel body).bind _ = _
  rw [hfirst]
  change (membersTail? fuel tail).bind _ = _
  rw [hmembers]
  rfl

/-- A constant is a word. -/
theorem isWord_null : IsWord ['n', 'u', 'l', 'l'] := ⟨List.cons_ne_nil _ _, List.all_eq_true.mp rfl⟩

/-- A truth value is a word. -/
theorem isWord_bool (layout : Layout) (depth : Nat) (value : Bool) :
    IsWord (chars layout depth (.bool value)) := by
  cases value <;> exact ⟨List.cons_ne_nil _ _, List.all_eq_true.mp rfl⟩

/-- A document begins with a character that is not skipped and closes no list. -/
theorem exists_chars_eq (layout : Layout) (depth : Nat) (document : Json) :
    ∃ c cs, chars layout depth document = c :: cs ∧ isBlank c = false ∧ c ≠ ']' := by
  have hword {word : List Char} (h : IsWord word) :
      ∃ c cs, word = c :: cs ∧ isBlank c = false ∧ c ≠ ']' := by
    obtain ⟨c, cs, heq, hblank, hother⟩ := h.exists_eq
    exact ⟨c, cs, heq, hblank, hother _ rfl⟩
  cases document with
  | null => exact hword isWord_null
  | bool value => exact hword (isWord_bool layout depth value)
  | whole n => exact hword (isWord_wholeChars n)
  | real x => exact hword (isWord_realChars x)
  | text s => exact ⟨_, _, rfl, rfl, by decide⟩
  | list items => cases items <;> exact ⟨_, _, rfl, rfl, by decide⟩
  | record members => cases members <;> exact ⟨_, _, rfl, rfl, by decide⟩

/-- Items in front of a closing bracket end a word. -/
theorem ends_itemsChars (layout : Layout) (depth : Nat) (items : List Json) {blanks : List Char}
    (h : IsBlanks blanks) (rest : List Char) :
    Ends (itemsChars layout depth items ++ (blanks ++ ']' :: rest)) := by
  cases items with
  | nil => exact ends_append h rfl rest
  | cons item items =>
    obtain ⟨gap, -, hseparator⟩ := exists_separator_eq layout depth
    rw [itemsChars, hseparator]
    have hnone : IsBlanks [] := fun c hc => nomatch hc
    exact ends_append hnone rfl _

/-- Members in front of a closing brace end a word. -/
theorem ends_membersChars (layout : Layout) (depth : Nat) (members : List (String × Json))
    {blanks : List Char} (h : IsBlanks blanks) (rest : List Char) :
    Ends (membersChars layout depth members ++ (blanks ++ '}' :: rest)) := by
  cases members with
  | nil => exact ends_append h rfl rest
  | cons first members =>
    obtain ⟨gap, -, hseparator⟩ := exists_separator_eq layout depth
    rw [membersChars, hseparator]
    have hnone : IsBlanks [] := fun c hc => nomatch hc
    exact ends_append hnone rfl _

mutual

-- The induction is on the document. Every call of the reader takes one from the fuel and at least one
-- character from the text, so that the fuel stays beyond what is left.
/-- A document is read from its text, up to what follows it. -/
theorem value?_chars (layout : Layout) : ∀ (document : Json) (depth fuel : Nat) (rest : List Char),
    Ends rest → (chars layout depth document ++ rest).length ≤ fuel →
    value? (fuel + 1) (chars layout depth document ++ rest) = some (document, rest)
  | .null, _, fuel, _, hrest, _ => value?_word isWord_null hrest fuel
  | .bool value, depth, fuel, _, hrest, _ => by
    rw [value?_word (isWord_bool layout depth value) hrest]
    cases value <;> rfl
  | .whole n, _, fuel, _, hrest, _ => by
    rw [chars, value?_word (isWord_wholeChars n) hrest, word?_wholeChars]
    rfl
  | .real x, _, fuel, _, hrest, _ => by
    rw [chars, value?_word (isWord_realChars x) hrest, word?_realChars]
    rfl
  | .text s, _, fuel, rest, _, _ => value?_text s rest fuel
  | .list [], _, fuel, rest, _, _ => value?_bracket (']' :: rest) fuel
  | .record [], _, fuel, rest, _, _ => value?_brace ('}' :: rest) fuel
  | .list (item :: items), depth, fuel, rest, _, hfuel => by
    obtain ⟨tail, htail⟩ : ∃ tail, tail = itemsChars layout (depth + 1) items ++
        (layout.newline depth ++ ']' :: rest) := ⟨_, rfl⟩
    have hchars : chars layout depth (.list (item :: items)) ++ rest =
        '[' :: (layout.newline (depth + 1) ++ (chars layout (depth + 1) item ++ tail)) := by
      simp [chars, htail]
    rw [hchars] at hfuel ⊢
    rw [List.length_cons, List.length_append, List.length_append] at hfuel
    obtain ⟨fuel, rfl⟩ := Nat.exists_eq_add_of_le' (by omega : 1 ≤ fuel)
    have hopen : ∀ c ∈ (skipBlanks (layout.newline (depth + 1) ++
        (chars layout (depth + 1) item ++ tail))).head?, c ≠ ']' := by
      obtain ⟨c, cs, heq, hblank, hclose⟩ := exists_chars_eq layout (depth + 1) item
      rw [skipBlanks_append (isBlanks_newline layout _), heq, List.cons_append, skipBlanks_cons hblank]
      intro d hd
      obtain rfl := Option.some_inj.mp hd
      exact hclose
    have hends : Ends tail := by
      rw [htail]
      exact ends_itemsChars layout _ items (isBlanks_newline layout depth) rest
    have hitem := value?_chars layout item (depth + 1) fuel tail hends
      (by rw [List.length_append]; omega)
    rw [← value?_blanks (isBlanks_newline layout (depth + 1))] at hitem
    have hitems := itemsTail?_chars layout items (depth + 1) fuel _ rest
      (isBlanks_newline layout depth) (by rw [← htail]; omega)
    rw [← htail] at hitems
    exact value?_list_cons hopen hitem hitems
  | .record ((name, value) :: members), depth, fuel, rest, _, hfuel => by
    obtain ⟨tail, htail⟩ : ∃ tail, tail = membersChars layout (depth + 1) members ++
        (layout.newline depth ++ '}' :: rest) := ⟨_, rfl⟩
    have hchars : chars layout depth (.record ((name, value) :: members)) ++ rest =
        '{' :: (layout.newline (depth + 1) ++ (textChars name ++
          (':' :: ' ' :: (chars layout (depth + 1) value ++ tail)))) := by
      simp [chars, htail]
    rw [hchars] at hfuel ⊢
    simp only [List.length_cons, List.length_append] at hfuel
    obtain ⟨fuel, rfl⟩ := Nat.exists_eq_add_of_le' (by omega : 2 ≤ fuel)
    have hopen : ∀ c ∈ (skipBlanks (layout.newline (depth + 1) ++ (textChars name ++
        (':' :: ' ' :: (chars layout (depth + 1) value ++ tail))))).head?, c ≠ '}' := by
      rw [skipBlanks_append (isBlanks_newline layout _), textChars, List.cons_append,
        skipBlanks_cons rfl]
      intro d hd
      obtain rfl := Option.some_inj.mp hd
      decide
    have hends : Ends tail := by
      rw [htail]
      exact ends_membersChars layout _ members (isBlanks_newline layout depth) rest
    have hfirst := pair?_chars name (value?_chars layout value (depth + 1) fuel tail hends
      (by rw [List.length_append]; omega))
    rw [← pair?_blanks (isBlanks_newline layout (depth + 1))] at hfirst
    have hmembers := membersTail?_chars layout members (depth + 1) (fuel + 1) _ rest
      (isBlanks_newline layout depth) (by rw [← htail]; omega)
    rw [← htail] at hmembers
    exact value?_record_cons hopen hfirst hmembers

/-- The items after the first one are read up to the closing bracket. -/
theorem itemsTail?_chars (layout : Layout) : ∀ (items : List Json) (depth fuel : Nat)
    (blanks rest : List Char), IsBlanks blanks →
    (itemsChars layout depth items ++ (blanks ++ ']' :: rest)).length ≤ fuel →
    itemsTail? (fuel + 1) (itemsChars layout depth items ++ (blanks ++ ']' :: rest)) =
      some (items, rest)
  | [], _, fuel, _, rest, hblanks, _ => itemsTail?_nil hblanks rest fuel
  | item :: items, depth, fuel, blanks, rest, hblanks, hfuel => by
    obtain ⟨gap, hgap, hseparator⟩ := exists_separator_eq layout depth
    obtain ⟨tail, htail⟩ : ∃ tail, tail = itemsChars layout depth items ++ (blanks ++ ']' :: rest) :=
      ⟨_, rfl⟩
    have hchars : itemsChars layout depth (item :: items) ++ (blanks ++ ']' :: rest) =
        ',' :: (gap ++ (chars layout depth item ++ tail)) := by
      simp [itemsChars, hseparator, htail]
    rw [hchars] at hfuel ⊢
    rw [List.length_cons, List.length_append, List.length_append] at hfuel
    obtain ⟨fuel, rfl⟩ := Nat.exists_eq_add_of_le' (by omega : 1 ≤ fuel)
    have hends : Ends tail := by
      rw [htail]
      exact ends_itemsChars layout _ items hblanks rest
    have hitem := value?_chars layout item depth fuel tail hends (by rw [List.length_append]; omega)
    rw [← value?_blanks hgap] at hitem
    have hitems := itemsTail?_chars layout items depth fuel blanks rest hblanks
      (by rw [← htail]; omega)
    rw [← htail] at hitems
    exact itemsTail?_cons hitem hitems

/-- The members after the first one are read up to the closing brace. -/
theorem membersTail?_chars (layout : Layout) : ∀ (members : List (String × Json)) (depth fuel : Nat)
    (blanks rest : List Char), IsBlanks blanks →
    (membersChars layout depth members ++ (blanks ++ '}' :: rest)).length ≤ fuel →
    membersTail? (fuel + 1) (membersChars layout depth members ++ (blanks ++ '}' :: rest)) =
      some (members, rest)
  | [], _, fuel, _, rest, hblanks, _ => membersTail?_nil hblanks rest fuel
  | (name, value) :: members, depth, fuel, blanks, rest, hblanks, hfuel => by
    obtain ⟨gap, hgap, hseparator⟩ := exists_separator_eq layout depth
    obtain ⟨tail, htail⟩ : ∃ tail, tail = membersChars layout depth members ++ (blanks ++ '}' :: rest) :=
      ⟨_, rfl⟩
    have hchars : membersChars layout depth ((name, value) :: members) ++ (blanks ++ '}' :: rest) =
        ',' :: (gap ++ (textChars name ++ (':' :: ' ' :: (chars layout depth value ++ tail)))) := by
      simp [membersChars, hseparator, htail]
    rw [hchars] at hfuel ⊢
    simp only [List.length_cons, List.length_append] at hfuel
    obtain ⟨fuel, rfl⟩ := Nat.exists_eq_add_of_le' (by omega : 2 ≤ fuel)
    have hends : Ends tail := by
      rw [htail]
      exact ends_membersChars layout _ members hblanks rest
    have hfirst := pair?_chars name (value?_chars layout value depth fuel tail hends
      (by rw [List.length_append]; omega))
    rw [← pair?_blanks hgap] at hfirst
    have hmembers := membersTail?_chars layout members depth (fuel + 1) blanks rest hblanks
      (by rw [← htail]; omega)
    rw [← htail] at hmembers
    exact membersTail?_cons hfirst hmembers

end

/-- A document is read back from its text. -/
theorem parse?_print (layout : Layout) (document : Json) :
    parse? (print layout document) = some document := by
  have hread := value?_chars layout document 0 (2 * (chars layout 0 document).length + 1) []
    (fun c hc => nomatch hc) (by rw [List.append_nil]; omega)
  rw [List.append_nil] at hread
  unfold parse? print
  rw [String.toList_ofList]
  change (value? (2 * (chars layout 0 document).length + 1 + 1) _).bind _ = _
  rw [hread]
  rfl

/-- The characters of words are ASCII. -/
theorem isAscii_of_isWordChar {c : Char} (h : isWordChar c = true) : IsAscii c := by
  simp only [isWordChar, Char.isAlphanum, Char.isAlpha, Char.isUpper, Char.isLower, Char.isDigit,
    Bool.or_eq_true, Bool.and_eq_true, decide_eq_true_eq, ge_iff_le, UInt32.le_iff_toNat_le] at h
  rcases h with ((h | rfl) | rfl) | rfl
  · have hbounds : 'Z'.val.toNat = 90 ∧ 'z'.val.toNat = 122 ∧ '9'.val.toNat = 57 := by decide
    change c.val.toNat < 128
    omega
  · decide
  · decide
  · decide

/-- Blanks are ASCII. -/
theorem IsBlanks.isAscii {blanks : List Char} (h : IsBlanks blanks) : ∀ c ∈ blanks, IsAscii c := by
  intro c hc
  have hblank := h c hc
  simp only [isBlank, Bool.or_eq_true, decide_eq_true_eq] at hblank
  rcases hblank with ((rfl | rfl) | rfl) | rfl <;> decide

/-- Separators are ASCII. -/
theorem isAscii_separator (layout : Layout) (depth : Nat) :
    ∀ c ∈ layout.separator depth, IsAscii c := by
  obtain ⟨blanks, hblanks, heq⟩ := exists_separator_eq layout depth
  rw [heq]
  exact List.forall_mem_cons.mpr ⟨by decide, hblanks.isAscii⟩

mutual

/-- The text of a document is ASCII. -/
theorem isAscii_chars (layout : Layout) : ∀ (document : Json) (depth : Nat),
    ∀ c ∈ chars layout depth document, IsAscii c
  | .null, _ => fun c hc => isAscii_of_isWordChar (isWord_null.isWordChar c hc)
  | .bool value, depth => fun c hc =>
    isAscii_of_isWordChar ((isWord_bool layout depth value).isWordChar c hc)
  | .whole n, _ => fun c hc => isAscii_of_isWordChar ((isWord_wholeChars n).isWordChar c hc)
  | .real x, _ => fun c hc => isAscii_of_isWordChar ((isWord_realChars x).isWordChar c hc)
  | .text s, _ => isAscii_textChars s
  | .list [], _ => isAscii_of_all rfl
  | .record [], _ => isAscii_of_all rfl
  | .list (item :: items), depth => by
    simp only [chars, List.forall_mem_cons, List.forall_mem_append, List.mem_singleton, forall_eq]
    exact ⟨by decide, (isBlanks_newline layout _).isAscii, isAscii_chars layout item _,
      isAscii_itemsChars layout items _, (isBlanks_newline layout _).isAscii, by decide⟩
  | .record ((name, value) :: members), depth => by
    simp only [chars, List.forall_mem_cons, List.forall_mem_append, List.mem_singleton, forall_eq]
    exact ⟨by decide, (isBlanks_newline layout _).isAscii, isAscii_textChars name, by decide, by decide,
      isAscii_chars layout value _, isAscii_membersChars layout members _,
      (isBlanks_newline layout _).isAscii, by decide⟩

/-- The texts of further items are ASCII. -/
theorem isAscii_itemsChars (layout : Layout) : ∀ (items : List Json) (depth : Nat),
    ∀ c ∈ itemsChars layout depth items, IsAscii c
  | [], _ => fun c hc => nomatch hc
  | item :: items, depth => by
    simp only [itemsChars, List.forall_mem_append]
    exact ⟨isAscii_separator layout depth, isAscii_chars layout item depth,
      isAscii_itemsChars layout items depth⟩

/-- The texts of further members are ASCII. -/
theorem isAscii_membersChars (layout : Layout) : ∀ (members : List (String × Json)) (depth : Nat),
    ∀ c ∈ membersChars layout depth members, IsAscii c
  | [], _ => fun c hc => nomatch hc
  | (name, value) :: members, depth => by
    simp only [membersChars, List.forall_mem_append, List.forall_mem_cons]
    exact ⟨isAscii_separator layout depth, isAscii_textChars name, by decide, by decide,
      isAscii_chars layout value depth, isAscii_membersChars layout members depth⟩

end

end Leapfrog.Json
