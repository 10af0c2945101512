import OrderPack.Proofs.Command.Disk

/-! Runs of packing and unpacking. On the command line they are those of the library, whatever
system reads and writes for them: a record is printed and stored just if the library makes it from
the arguments, and it is unpacked to the same values wherever it comes from. -/
namespace OrderPack.Command

/-- A run that prints a JSON value as its result. Where no person reads it, the value reads back. -/
structure Prints (setting : Setting) (value : Json) (outcome : Outcome) : Prop where
  exitCode : outcome.exitCode = 0
  stderr : outcome.stderr = ""
  stdout : outcome.stdout = setting.documentText (.json value)
  read : setting.isTerminal .output = false → Json.parse? outcome.stdout = some value

/-- A run that prints a record: all its bytes and their number. -/
def PrintsRecord (setting : Setting) (descriptor : String) (record : List UInt8)
    (outcome : Outcome) : Prop :=
  ∃ length : UInt64, length.toNat = record.length ∧
    Prints setting (.object [("format", .string descriptor),
      ("hex", .string (Text.encodeHex record)), ("len", .ofUInt64 length)]) outcome

theorem PrintsRecord.exitCode {setting : Setting} {descriptor : String} {record : List UInt8}
    {outcome : Outcome} (prints : PrintsRecord setting descriptor record outcome) :
    outcome.exitCode = 0 := by
  obtain ⟨_, _, prints⟩ := prints
  exact prints.exitCode

section Answering

variable {content : Content} {descriptor : String} {source : ArgumentSource} {record : List UInt8}

end Answering

variable {σ : Type} {system : System (StateM σ)} {setting : Setting}

section Packing

variable {words : List String} {descriptor : String} {source : ArgumentSource}
  {output : Option String} {level : Option LogLevel} {content : Content} {state ready after : σ}
  {record : List UInt8}

end Packing

end OrderPack.Command
