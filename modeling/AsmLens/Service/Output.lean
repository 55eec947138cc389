import AsmLens.Correlation

/-!
# Results of the service

What a compiler or a formatter of the service made of a source. The result of a compiler must have
an assembly, and that of a formatter an answer; every other detail falls back to a plain one.
-/

namespace AsmLens

/-- What a compiler made of a source. -/
structure CompileOutput where
  /-- The status with which the compiler ended. -/
  code : Number
  asm : List AsmLine
  stdout : List Json
  stderr : List Json

/-- What a formatter made of a source. -/
structure FormatOutput where
  /-- The formatted text, or what the formatter says about its failure. -/
  answer : String
  exit : Number

namespace AsmLine

/-- The line of assembly that an entry describes; an entry that is nothing cannot be asked. -/
def read (entry : Json) : Except Fault AsmLine :=
  match entry with
  | .null => .error (.fieldOfNull "text")
  | _ => .ok ⟨(entry.stringField? "text").getD "", (entry.field? "source").getD .null⟩

def toJson (line : AsmLine) : Json := .obj [("text", .str line.text), ("source", line.source)]

end AsmLine

namespace CompileOutput

def noAssembly : String := "Invalid response: compile result has no assembly"

def read (answer : Option Json) : Except Fault (Except String CompileOutput) :=
  match answer.filter Json.isObject with
  | none => .ok (.error noAssembly)
  | some body =>
    match body.itemsField? "asm" with
    | none => .ok (.error noAssembly)
    | some entries => do
      return .ok {
        code := (body.numberField? "code").getD 0
        asm := ← entries.mapM AsmLine.read
        stdout := (body.itemsField? "stdout").getD []
        stderr := (body.itemsField? "stderr").getD [] }

def toJson (output : CompileOutput) : Json :=
  .obj [("code", .num output.code), ("asm", .arr (output.asm.map AsmLine.toJson)),
    ("stdout", .arr output.stdout), ("stderr", .arr output.stderr)]

end CompileOutput

namespace FormatOutput

def noAnswer : String := "Invalid response: format result has no answer"

def read (answer : Option Json) : Except String FormatOutput :=
  match answer.filter Json.isObject with
  | none => .error noAnswer
  | some body =>
    match body.stringField? "answer" with
    | none => .error noAnswer
    | some text => .ok ⟨text, (body.numberField? "exit").getD 0⟩

def toJson (output : FormatOutput) : Json :=
  .obj [("answer", .str output.answer), ("exit", .num output.exit)]

end FormatOutput

end AsmLens
