import OrderPack.Proofs.Json.Members
import OrderPack.Proofs.Json.Number

/-! JSON text that reads back. What is written for a value is read as this value, provided that
its numbers are whole, that its objects hold their members in order, and that it is not nested
too deep. The reader stops right behind the value, so that the parts of an array or object can
be read one after another. -/
namespace OrderPack.Json

theorem hexValue?_hexDigit {n : Nat} (small : n < 16) :
    hexValue? (Text.hexDigit n) = some n := by
  have all : ∀ n : Fin 16, hexValue? (Text.hexDigit n.val) = some n.val := by decide
  exact all ⟨n, small⟩

/-- A character in front of what is read of a string behind it. -/
def consChar (c : Char) (body : List Char × List Char) : List Char × List Char :=
  (c :: body.1, body.2)

theorem stringBody_escape {letter c : Char} (escape : escaped? letter = some c)
    (rest : List Char) :
    stringBody ('\\' :: letter :: rest) = (stringBody rest).map (consChar c) := by
  rw [stringBody.eq_def]
  split
  · contradiction
  · rename_i same
    cases same
  · rename_i same
    cases same
    cases escape
  · rename_i same
    cases same
    rw [escape]
    cases stringBody rest <;> rfl
  · rename_i apart same
    cases same
    exact (apart _ _ rfl rfl).elim

theorem stringBody_unit {h l : Char} {high low : Nat} (first : hexValue? h = some high)
    (second : hexValue? l = some low) (small : high * 16 + low < 0xd800) (rest : List Char) :
    stringBody ('\\' :: 'u' :: '0' :: '0' :: h :: l :: rest) =
      (stringBody rest).map (consChar (Char.ofNat (high * 16 + low))) := by
  have unit : unit? '0' '0' h l = some (high * 16 + low) := by
    have zero : hexValue? '0' = some 0 := rfl
    simp [unit?, zero, first, second]
  rw [stringBody.eq_def]
  simp only [unit, Option.bind_eq_bind, Option.bind_some]
  rw [if_neg (by omega), if_neg (by omega)]
  cases stringBody rest <;> rfl

theorem stringBody_plain {c : Char} (quote : c ≠ '"') (escape : c ≠ '\\')
    (shown : ¬c.toNat < 0x20) (rest : List Char) :
    stringBody (c :: rest) = (stringBody rest).map (consChar c) := by
  rw [stringBody.eq_def]
  split
  · contradiction
  · rename_i same
    cases same
    exact absurd rfl quote
  · rename_i same
    cases same
    exact absurd rfl escape
  · rename_i same
    cases same
    exact absurd rfl escape
  · rename_i same
    cases same
    rw [if_neg (not_or.mpr ⟨shown, escape⟩)]
    cases stringBody rest <;> rfl

/-- A character of a string is read as itself, whether or not it is escaped. -/
theorem stringBody_jsonChar (c : Char) (rest : List Char) :
    stringBody (Text.jsonChar c ++ rest) = (stringBody rest).map (consChar c) := by
  unfold Text.jsonChar
  -- Seven characters have a letter of their own.
  iterate 7
    split
    · subst_vars
      exact stringBody_escape rfl rest
  split
  · rename_i control
    have byte : (UInt8.ofNat c.toNat).toNat = c.toNat :=
      UInt8.toNat_ofNat_of_lt' (Nat.lt_trans control (by decide))
    have halves : c.toNat / 16 * 16 + c.toNat % 16 = c.toNat := by omega
    have read := stringBody_unit (hexValue?_hexDigit (n := c.toNat / 16) (by omega))
      (hexValue?_hexDigit (n := c.toNat % 16) (by omega)) (by omega) rest
    rw [halves, Char.ofNat_toNat] at read
    rw [Text.hexPair, byte]
    exact read
  · exact stringBody_plain ‹_› ‹_› ‹_› rest

/-- A string is read up to the quote that closes it. -/
theorem stringBody_written (chars rest : List Char) :
    stringBody (chars.flatMap Text.jsonChar ++ '"' :: rest) = some (chars, rest) := by
  induction chars with
  | nil => rw [List.flatMap_nil, List.nil_append, stringBody]
  | cons c chars ih =>
    rw [List.flatMap_cons, List.append_assoc, stringBody_jsonChar, ih]
    rfl

theorem jsonString_append (content : String) (rest : List Char) :
    Text.jsonString content ++ rest =
      '"' :: (content.toList.flatMap Text.jsonChar ++ '"' :: rest) := by
  simp only [Text.jsonString, List.cons_append, List.append_assoc, List.nil_append]

/-- Nothing but punctuation or the end of a line follows a value. -/
def Follows (rest : List Char) : Prop :=
  ∀ c ∈ rest.head?, c = ',' ∨ c = ']' ∨ c = '\x7d' ∨ c = '\n'

theorem Follows.ends {rest : List Char} (follows : Follows rest) : JsonNumber.Ends rest := by
  intro c first
  rcases follows c first with rfl | rfl | rfl | rfl <;>
    exact ⟨rfl, by decide, by decide, by decide⟩

/-- The text of a value begins with neither white space nor a bracket that closes. -/
def Opens (chars : List Char) : Prop :=
  ∃ c ∈ chars.head?, c ∉ [' ', '\n', '\t', '\r', ']', '\x7d']

theorem Opens.ne_nil {chars : List Char} (opens : Opens chars) : chars ≠ [] := by
  rintro rfl
  obtain ⟨c, first, _⟩ := opens
  cases first

theorem Opens.append {chars : List Char} (opens : Opens chars) (rest : List Char) :
    Opens (chars ++ rest) := by
  obtain ⟨c, first, apart⟩ := opens
  refine ⟨c, ?_, apart⟩
  cases chars with
  | nil => cases first
  | cons d chars => exact first

theorem Opens.skipSpace {chars : List Char} (opens : Opens chars) : skipSpace chars = chars := by
  obtain ⟨c, first, apart⟩ := opens
  cases chars with
  | nil => cases first
  | cons d chars =>
    cases first
    simp only [List.mem_cons, List.not_mem_nil, or_false, not_or] at apart
    simp [Json.skipSpace, apart]

/-- Values whose numbers are whole and whose objects hold their members in order, nested in no
more than so many levels. -/
inductive Plain : Nat → Json → Prop where
  | null : Plain depth .null
  | bool (value : Bool) : Plain depth (.bool value)
  | natural (n : UInt64) : Plain depth (.number (.natural n))
  | negative (below : n.toInt < 0) : Plain depth (.number (.negative n))
  | string (content : String) : Plain depth (.string content)
  | array (each : ∀ item ∈ items, Plain depth item) : Plain (depth + 1) (.array items)
  | object (ordered : members.Pairwise (·.1 < ·.1))
      (each : ∀ member ∈ members, Plain depth member.2) : Plain (depth + 1) (.object members)

theorem itemChars_eq (items : List Json) : itemChars items = items.map chars := by
  induction items with
  | nil => rfl
  | cons item items ih => rw [itemChars, ih, List.map_cons]

/-- A member of an object as characters. -/
def memberText (member : String × Json) : List Char :=
  Text.jsonString member.1 ++ ':' :: member.2.chars

theorem memberChars_eq (members : List (String × Json)) :
    memberChars members = members.map memberText := by
  induction members with
  | nil => rfl
  | cons member members ih => rw [memberChars, ih, List.map_cons, memberText]

theorem exists_decimal (n : Nat) :
    ∃ c digits, Nat.toDigits 10 n = c :: digits ∧ c.isDigit = true := by
  cases shown : Nat.toDigits 10 n with
  | nil => exact absurd shown Nat.toDigits_ne_nil
  | cons c digits =>
    refine ⟨c, digits, rfl, ?_⟩
    apply JsonNumber.decimal_toDigits n
    rw [shown]
    exact .head digits

theorem opens_natural (n : UInt64) : Opens (JsonNumber.natural n).render := by
  obtain ⟨c, digits, shown, decimal⟩ := exists_decimal n.toNat
  rw [JsonNumber.render_natural, shown]
  refine ⟨c, rfl, fun apart => ?_⟩
  simp only [List.mem_cons, List.not_mem_nil, or_false] at apart
  rcases apart with rfl | rfl | rfl | rfl | rfl | rfl <;> cases decimal

theorem Plain.opens {depth : Nat} {value : Json} (plain : Plain depth value) :
    Opens value.chars := by
  cases plain with
  | null => exact ⟨'n', rfl, by decide⟩
  | bool value => cases value <;> exact ⟨_, rfl, by decide⟩
  | natural n => exact opens_natural n
  | negative below =>
    have ends : JsonNumber.Ends [] := nofun
    obtain ⟨digits, written, _⟩ := JsonNumber.unsigned_negative below ends
    rw [chars, written]
    exact ⟨'-', rfl, by decide⟩
  | string content => exact ⟨'"', rfl, by decide⟩
  | array each => exact ⟨'[', rfl, by decide⟩
  | object ordered each => exact ⟨'\x7b', rfl, by decide⟩

/-- A value that begins with a digit is a number. -/
theorem value_unsigned {c : Char} (decimal : c.isDigit = true) (depth : Nat)
    (rest : List Char) :
    value depth (c :: rest) =
      (JsonNumber.unsigned false (c :: rest)).map fun read => (.number read.1, read.2) := by
  rw [value.eq_def]
  split
  case h_8 => cases JsonNumber.unsigned false (c :: rest) <;> rfl
  all_goals
    rename_i same
    cases same
    cases decimal

theorem value_minus (depth : Nat) (rest : List Char) :
    value depth ('-' :: rest) =
      (JsonNumber.unsigned true rest).map fun read => (.number read.1, read.2) := by
  rw [value]
  cases JsonNumber.unsigned true rest <;> rfl

theorem value_quote (depth : Nat) (rest : List Char) :
    value depth ('"' :: rest) =
      (stringBody rest).map fun read => (.string (String.ofList read.1), read.2) := by
  rw [value]
  cases stringBody rest <;> rfl

/-- A reader of values finds this one in its text, and stops behind it. -/
structure ReadsAs (item : List Char → Option (Json × List Char)) (value : Json) : Prop where
  opens : Opens value.chars
  stops : ∀ rest, Follows rest → item (value.chars ++ rest) = some (value, rest)

theorem follows_comma (rest : List Char) : Follows (',' :: rest) := by
  rintro _ ⟨⟩
  exact .inl rfl

theorem follows_bracket (rest : List Char) : Follows (']' :: rest) := by
  rintro _ ⟨⟩
  exact .inr (.inl rfl)

theorem follows_brace (rest : List Char) : Follows ('\x7d' :: rest) := by
  rintro _ ⟨⟩
  exact .inr (.inr (.inl rfl))

theorem length_le_commaSeparated {parts : List (List Char)} (some : ∀ part ∈ parts, part ≠ []) :
    parts.length ≤ (commaSeparated parts).length := by
  induction parts with
  | nil => exact Nat.zero_le _
  | cons part parts ih =>
    obtain ⟨first, others⟩ := List.forall_mem_cons.mp some
    have room := List.length_pos_iff.mpr first
    cases parts with
    | nil => exact room
    | cons next parts =>
      have later := ih others
      simp only [commaSeparated, List.length_append, List.length_cons] at later ⊢
      omega

theorem commaSeparated_cons_cons (part next : List Char) (parts : List (List Char)) :
    commaSeparated (part :: next :: parts) = part ++ ',' :: commaSeparated (next :: parts) :=
  rfl

/-- The items of an array are read one after another, up to the bracket that closes it. -/
theorem arrayItems_written {item : List Char → Option (Json × List Char)} {items : List Json}
    (some : items ≠ []) (each : ∀ value ∈ items, ReadsAs item value) {fuel : Nat}
    (enough : items.length ≤ fuel) (rest : List Char) :
    arrayItems item fuel (commaSeparated (items.map chars) ++ ']' :: rest) =
      .some (items, rest) := by
  induction items generalizing fuel with
  | nil => exact absurd rfl some
  | cons value items ih =>
    obtain ⟨⟨opens, stops⟩, others⟩ := List.forall_mem_cons.mp each
    cases fuel with
    | zero => cases enough
    | succ fuel =>
      cases items with
      | nil =>
        rw [List.map_singleton, commaSeparated, arrayItems, (opens.append _).skipSpace,
          stops _ (follows_bracket rest)]
        rfl
      | cons next items =>
        have later := ih (List.cons_ne_nil next items) others (Nat.le_of_succ_le_succ enough)
        rw [List.map_cons] at later
        rw [List.map_cons, List.map_cons, commaSeparated_cons_cons, List.append_assoc, arrayItems,
          (opens.append _).skipSpace, List.cons_append, stops _ (follows_comma _)]
        change (arrayItems item fuel _).bind (fun read => pure (value :: read.1, read.2)) = _
        rw [later]
        rfl

theorem memberText_append (key : String) (value : Json) (rest : List Char) :
    memberText (key, value) ++ rest =
      '"' :: (key.toList.flatMap Text.jsonChar ++ '"' :: ':' :: (value.chars ++ rest)) := by
  rw [memberText, List.append_assoc, jsonString_append]
  rfl

theorem skipSpace_quote (rest : List Char) : skipSpace ('"' :: rest) = '"' :: rest := rfl

theorem skipSpace_colon (rest : List Char) : skipSpace (':' :: rest) = ':' :: rest := rfl

/-- A member that a bracket follows is the last. -/
theorem objectMembers_brace {item : List Char → Option (Json × List Char)} {value : Json}
    (reads : ReadsAs item value) (key : String) (fuel : Nat) (rest : List Char) :
    objectMembers item (fuel + 1) (memberText (key, value) ++ '\x7d' :: rest) =
      some ([(key, value)], rest) := by
  rw [memberText_append, objectMembers, skipSpace_quote]
  simp only [stringBody_written, Option.bind_eq_bind, Option.bind_some, skipSpace_colon,
    (reads.opens.append _).skipSpace, reads.stops _ (follows_brace rest), String.ofList_toList]
  rfl

/-- After a member and a comma the others are read. -/
theorem objectMembers_comma {item : List Char → Option (Json × List Char)} {value : Json}
    (reads : ReadsAs item value) (key : String) (fuel : Nat) (rest : List Char) :
    objectMembers item (fuel + 1) (memberText (key, value) ++ ',' :: rest) =
      (objectMembers item fuel rest).map fun read => ((key, value) :: read.1, read.2) := by
  rw [memberText_append, objectMembers, skipSpace_quote]
  simp only [stringBody_written, Option.bind_eq_bind, Option.bind_some, skipSpace_colon,
    (reads.opens.append _).skipSpace, reads.stops _ (follows_comma rest), String.ofList_toList]
  change (objectMembers item fuel rest).bind _ = _
  cases objectMembers item fuel rest <;> rfl

/-- The members of an object are read one after another, up to the bracket that closes it. -/
theorem objectMembers_written {item : List Char → Option (Json × List Char)}
    {members : List (String × Json)} (some : members ≠ [])
    (each : ∀ member ∈ members, ReadsAs item member.2) {fuel : Nat}
    (enough : members.length ≤ fuel) (rest : List Char) :
    objectMembers item fuel (commaSeparated (members.map memberText) ++ '\x7d' :: rest) =
      .some (members, rest) := by
  induction members generalizing fuel with
  | nil => exact absurd rfl some
  | cons member members ih =>
    obtain ⟨first, others⟩ := List.forall_mem_cons.mp each
    cases fuel with
    | zero => cases enough
    | succ fuel =>
      cases members with
      | nil =>
        rw [List.map_singleton, commaSeparated,
          objectMembers_brace first member.1 fuel rest]
      | cons next members =>
        have later := ih (List.cons_ne_nil next members) others (Nat.le_of_succ_le_succ enough)
        rw [List.map_cons] at later
        rw [List.map_cons, List.map_cons, commaSeparated_cons_cons, List.append_assoc,
          List.cons_append, objectMembers_comma first member.1 fuel, later]
        rfl

/-- Members in any order make a value that reads back. -/
theorem plain_ofMembers {depth : Nat} {members : List (String × Json)}
    (each : ∀ member ∈ members, Plain depth member.2) : Plain (depth + 1) (ofMembers members) := by
  have fold : ∀ sorted : List (String × Json), sorted.Pairwise (·.1 < ·.1) →
      (∀ member ∈ sorted, Plain depth member.2) →
      Plain (depth + 1) (.object
        (members.foldl (fun sorted member => insertMember member.1 member.2 sorted) sorted)) := by
    induction members with
    | nil => exact fun sorted ordered held => .object ordered held
    | cons member members ih =>
      intro sorted ordered held
      obtain ⟨first, others⟩ := List.forall_mem_cons.mp each
      refine ih others _ (ordered_insertMember member.1 member.2 ordered) fun other found => ?_
      rcases mem_insertMember found with rfl | old
      · exact first
      · exact held other old
  exact fold [] .nil nofun

/-- Behind the bracket that opens an array come its items, if it has any. -/
theorem value_bracket {text : List Char} (opens : Opens text) (depth : Nat) :
    value (depth + 1) ('[' :: text) =
      (arrayItems (value depth) text.length text).map fun read => (.array read.1, read.2) := by
  rw [value]
  simp only [opens.skipSpace]
  split
  · obtain ⟨_, ⟨⟩, apart⟩ := opens
    exact absurd (by decide) apart
  · cases arrayItems (value depth) text.length text <;> rfl

/-- Behind the bracket that opens an object come its members, if it has any. -/
theorem value_brace {text : List Char} (opens : Opens text) (depth : Nat) :
    value (depth + 1) ('\x7b' :: text) =
      (objectMembers (value depth) text.length text).map
        fun read => (ofMembers read.1, read.2) := by
  rw [value]
  simp only [opens.skipSpace]
  split
  · obtain ⟨_, ⟨⟩, apart⟩ := opens
    exact absurd (by decide) apart
  · cases objectMembers (value depth) text.length text <;> rfl

theorem opens_commaSeparated {parts : List (List Char)} (some : parts ≠ [])
    (each : ∀ part ∈ parts, Opens part) : Opens (commaSeparated parts) := by
  cases parts with
  | nil => exact absurd rfl some
  | cons part parts =>
    have first := each part (.head _)
    cases parts with
    | nil => exact first
    | cons next parts => exact first.append _

/-- An array is read from bracket to bracket. -/
theorem value_array {depth : Nat} {items : List Json}
    (each : ∀ item ∈ items, ReadsAs (value depth) item) (rest : List Char) :
    value (depth + 1) ((array items).chars ++ rest) = some (.array items, rest) := by
  have shape : (array items).chars ++ rest =
      '[' :: (commaSeparated (items.map chars) ++ ']' :: rest) := by
    rw [chars, itemChars_eq, List.append_assoc]
    rfl
  rw [shape]
  by_cases none : items = []
  · rw [none, List.map_nil, value]
    rfl
  · have texts : ∀ part ∈ items.map chars, Opens part := by
      intro part found
      obtain ⟨item, member, rfl⟩ := List.mem_map.mp found
      exact (each item member).opens
    have opens := opens_commaSeparated (fun gone => none (List.map_eq_nil_iff.mp gone)) texts
    have room := length_le_commaSeparated fun part found => (texts part found).ne_nil
    rw [List.length_map] at room
    rw [value_bracket (opens.append _), arrayItems_written none each]
    · rfl
    · rw [List.length_append]
      exact Nat.le_add_right_of_le room

/-- An object is read from bracket to bracket. -/
theorem value_object {depth : Nat} {members : List (String × Json)}
    (ordered : members.Pairwise (·.1 < ·.1))
    (each : ∀ member ∈ members, ReadsAs (value depth) member.2) (rest : List Char) :
    value (depth + 1) ((object members).chars ++ rest) = some (.object members, rest) := by
  have shape : (object members).chars ++ rest =
      '\x7b' :: (commaSeparated (members.map memberText) ++ '\x7d' :: rest) := by
    rw [chars, memberChars_eq, List.append_assoc]
    rfl
  rw [shape]
  by_cases none : members = []
  · rw [none, List.map_nil, value]
    rfl
  · have texts : ∀ part ∈ members.map memberText, Opens part := by
      intro part found
      obtain ⟨member, _, rfl⟩ := List.mem_map.mp found
      exact ⟨'"', rfl, by decide⟩
    have opens := opens_commaSeparated (fun gone => none (List.map_eq_nil_iff.mp gone)) texts
    have room := length_le_commaSeparated fun part found => (texts part found).ne_nil
    rw [List.length_map] at room
    rw [value_brace (opens.append _), objectMembers_written none each]
    · rw [Option.map_some, ofMembers_of_ordered ordered]
    · rw [List.length_append]
      exact Nat.le_add_right_of_le room

/-- What is written for a value is read as this value, and what follows it is left. -/
theorem value_chars {depth : Nat} {json : Json} (plain : Plain depth json) {rest : List Char}
    (follows : Follows rest) : value depth (json.chars ++ rest) = some (json, rest) := by
  induction plain generalizing rest with
  | null => exact value.eq_1 ..
  | bool held =>
    cases held with
    | false => exact value.eq_3 ..
    | true => exact value.eq_2 ..
  | natural n =>
    obtain ⟨c, digits, shown, decimal⟩ := exists_decimal n.toNat
    have read := JsonNumber.unsigned_natural n follows.ends
    rw [JsonNumber.render_natural, shown, List.cons_append] at read
    rw [chars, JsonNumber.render_natural, shown, List.cons_append, value_unsigned decimal, read]
    rfl
  | negative below =>
    obtain ⟨digits, written, read⟩ := JsonNumber.unsigned_negative below follows.ends
    rw [chars, written, List.cons_append, value_minus, read]
    rfl
  | string content =>
    rw [chars, jsonString_append, value_quote, stringBody_written, Option.map_some,
      String.ofList_toList]
  | array each ih =>
    exact value_array (fun item member => ⟨(each item member).opens, fun _ => ih item member⟩) rest
  | object ordered each ih =>
    exact value_object ordered
      (fun member found => ⟨(each member found).opens, fun _ => ih member found⟩) rest

/-- A value reads back from its text, whether or not the text ends a line. -/
theorem parse?_render {json : Json} (plain : Plain (maxDepth - 1) json) :
    parse? json.render = some json ∧ parse? (json.render ++ "\n") = some json := by
  have read : ∀ rest, Follows rest → skipSpace rest = [] →
      parse? (String.ofList (json.chars ++ rest)) = some json := by
    intro rest follows blank
    rw [parse?, String.toList_ofList, (plain.opens.append rest).skipSpace]
    simp only [value_chars plain follows, Option.bind_eq_bind, Option.bind_some, blank]
    rfl
  constructor
  · have whole := read [] nofun rfl
    rwa [List.append_nil] at whole
  · have whole := read ['\n'] (fun _ first => .inr (.inr (.inr (Option.some.inj first).symm))) rfl
    rwa [String.ofList_append] at whole

end OrderPack.Json
