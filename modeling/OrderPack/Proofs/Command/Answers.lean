import OrderPack.Command.Answer
import OrderPack.Proofs.Arguments.RoundTrip
import OrderPack.Proofs.Text.Hex

/-! What a command answers, and from what. Arguments are a JSON value, wherever they come from;
packing and unpacking are those of the library; and what is printed can be read again. -/
namespace OrderPack

/-- A report reads back from what is printed of it. -/
theorem Report.plain_toJson (report : Report) (depth : Nat) :
    Json.Plain (depth + 3) report.toJson := by
  unfold toJson
  apply Json.plain_ofMembers
  refine List.forall_mem_singleton.mpr (Json.plain_ofMembers fun member found => ?_)
  simp only [List.mem_append, List.mem_cons, List.not_mem_nil, or_false, Option.mem_toList,
    Option.map_eq_some_iff] at found
  rcases found with ((((rfl | rfl) | ⟨hint, _, rfl⟩) | ⟨offset, _, rfl⟩) | ⟨field, _, rfl⟩) |
    ⟨causes, _, rfl⟩
  · exact .string _
  · exact .string _
  · exact .string _
  · exact .natural _
  · exact .natural _
  · refine .array fun item listed => ?_
    obtain ⟨cause, _, rfl⟩ := List.mem_map.mp listed
    exact .string _

namespace Command

theorem Setting.documentText_json {setting : Setting} (piped : setting.isTerminal .output = false)
    (value : Json) : setting.documentText (.json value) = jsonLine value := by
  rw [documentText, piped]
  rfl

/-- A JSON value reads back from a line of its own. -/
theorem parse?_jsonLine {value : Json} (plain : Json.Plain (Json.maxDepth - 1) value) :
    Json.parse? (jsonLine value) = some value :=
  (Json.parse?_render plain).2

/-- The JSON value that the arguments for packing are: that of a text on the command line or in
a file, whose content has been read, or an array of no items where none are given. -/
inductive Spells (content : Content) : ArgumentSource → Json → Prop where
  | inline (spelt : Json.parse? text = some arguments) : Spells content (.inline text) arguments
  | file (held : content = .ok (Text.bytes text)) (spelt : Json.parse? text = some arguments) :
      Spells content (.file path) arguments
  | absent : Spells content .absent (.array [])

theorem parseArguments_of_some (setting : Setting) {text : String} {arguments : Json}
    (spelt : Json.parse? text = some arguments) : parseArguments setting text = .ok arguments := by
  rw [parseArguments, spelt]

theorem loadArguments_of_spells {content : Content} {source : ArgumentSource} {arguments : Json}
    (spells : Spells content source arguments) (setting : Setting) :
    loadArguments setting source content = .ok arguments := by
  cases spells with
  | inline spelt => exact parseArguments_of_some setting spelt
  | file held spelt =>
    unfold loadArguments
    simp only [held, Text.ofBytes_bytes]
    exact parseArguments_of_some setting spelt
  | absent => rfl

/-- What is printed of a record: its bytes and their number. -/
def recordJson (descriptor : String) (record : List UInt8) : Json :=
  .object [("format", .string descriptor), ("hex", .string (Text.encodeHex record)),
    ("len", .ofNat record.length)]

theorem recordJson_eq (descriptor : String) (record : List UInt8) :
    Json.ofMembers [("format", .string descriptor), ("len", .ofNat record.length),
      ("hex", .string (Text.encodeHex record))] = recordJson descriptor record := by
  simp +decide only [Json.ofMembers, List.foldl_cons, List.foldl_nil, Json.insertMember, if_true,
    if_false, recordJson]

/-- What is printed of the values of a record. -/
def valuesJson (descriptor : String) (values : List Value) : Json :=
  .object [("format", .string descriptor), ("values", .array (values.map Value.toJson))]

theorem valuesJson_eq (descriptor : String) (values : List Value) :
    Json.ofMembers [("format", .string descriptor),
      ("values", .array (values.map Value.toJson))] = valuesJson descriptor values := by
  simp +decide only [Json.ofMembers, List.foldl_cons, List.foldl_nil, Json.insertMember, if_false,
    valuesJson]

theorem plain_valuesJson (descriptor : String) (values : List Value) (depth : Nat) :
    Json.Plain (depth + 3) (valuesJson descriptor values) := by
  rw [← valuesJson_eq]
  apply Json.plain_ofMembers
  simp only [List.mem_cons, List.not_mem_nil, or_false, forall_eq_or_imp, forall_eq]
  exact ⟨.string _, plain_toJson_array values depth⟩

/-- What is answered when a record has been packed. It also goes to a file if there is one. -/
def receipt (descriptor : String) (output : Option String) (record : List UInt8) : Answer :=
  ⟨.json (recordJson descriptor record), output.map fun path => (path, record)⟩

/-- The library's answer to values. -/
def packed (descriptor : String) (output : Option String) (values : List Value) :
    Except Report Answer :=
  ((Record.pack descriptor values).mapError Record.PackError.report).map
    (receipt descriptor output)

theorem packAnswer_of_values {descriptor : String} {arguments : Json} {values : List Value}
    (made : Arguments.values descriptor arguments = .ok values) (output : Option String) :
    packAnswer descriptor arguments output = packed descriptor output values := by
  unfold packAnswer
  rw [made]
  change ((Record.pack descriptor values).mapError _).bind _ = _
  unfold packed
  cases Record.pack descriptor values with
  | error error => rfl
  | ok record =>
    change _ = Except.ok (receipt descriptor output record)
    rw [receipt, ← recordJson_eq]
    rfl

theorem unpackAnswer_of_unpack {descriptor : String} {buffer : List UInt8} {values : List Value}
    (unpacks : Record.unpack descriptor buffer = .ok values) :
    unpackAnswer descriptor buffer = .ok { document := .json (valuesJson descriptor values) } := by
  unfold unpackAnswer
  rw [unpacks, ← valuesJson_eq]
  rfl

theorem answer_of_spells {content : Content} {source : ArgumentSource} {arguments : Json}
    (spells : Spells content source arguments) (setting : Setting) (descriptor : String)
    (output : Option String) :
    (Invocation.pack descriptor source output).answer setting content =
      packAnswer descriptor arguments output := by
  rw [Invocation.answer, loadArguments_of_spells spells]
  rfl

/-- A value is found again by its kind in what is printed of it, and so the values that are printed
of a record are given to the library again when they are the arguments for packing under the same
descriptor, wherever they are read from. -/
theorem printed_values_packed_again {descriptor : String} {buffer : List UInt8}
    {values : List Value} (unpacks : Record.unpack descriptor buffer = .ok values) :
    (∀ value : Value, Arguments.coerce? value.kind value.toJson = some value) ∧
    Arguments.values descriptor (.array (values.map Value.toJson)) = .ok values ∧
    ∃ answer arguments, unpackAnswer descriptor buffer = .ok answer ∧
      (∀ setting : Setting, setting.isTerminal .output = false →
        Json.parse? (setting.documentText answer.document) =
          some (.object [("format", .string descriptor), ("values", arguments)])) ∧
      Json.parse? arguments.render = some arguments ∧
      ∀ setting content source output, Spells content source arguments →
        (Invocation.pack descriptor source output).answer setting content =
          packed descriptor output values := by
  have made := Arguments.values_toJson unpacks
  refine ⟨Arguments.coerce?_toJson, made, _, .array (values.map Value.toJson),
    unpackAnswer_of_unpack unpacks, ?_,
    (Json.parse?_render (plain_toJson_array values 125)).1, ?_⟩
  · intro setting piped
    rw [Setting.documentText_json piped]
    exact parse?_jsonLine (plain_valuesJson descriptor values 124)
  · intro setting content source output spells
    rw [answer_of_spells spells]
    exact packAnswer_of_values made output

/-- The least and the greatest number, an empty text, no bytes, and bytes to the end. -/
theorem printed_values_packed_again_extremes :
    Arguments.values "qQxSUu"
      (.array [.ofInt64 (-9223372036854775808), .ofUInt64 18446744073709551615, .string "",
        .array [], .array [.ofNat 0, .ofNat 255]]) =
      .ok [.int64 (-9223372036854775808), .uint64 18446744073709551615, .text "", .bytes [],
        .bytes [0, 255]] := by
  have unpacks : Record.unpack "qQxSUu"
      [16, 128, 0, 0, 0, 0, 0, 0, 0, 232, 255, 255, 255, 255, 255, 255, 223, 191, 0, 0, 128, 0,
        255] = .ok [.int64 (-9223372036854775808), .uint64 18446744073709551615, .text "",
          .bytes [], .bytes [0, 255]] := by
    with_unfolding_all rfl
  exact (printed_values_packed_again unpacks).2.1

end Command

end OrderPack
