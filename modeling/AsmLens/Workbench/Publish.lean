import AsmLens.Workbench.Basic

/-!
# Publishing an output

What is done with the output of a compiler: it becomes the text of the generated document, which is
shown beside the source; when the whole source was compiled, a session links the two; and what the
compiler says about the source becomes messages on its lines.
-/

namespace AsmLens.Workbench

/-- Replaces the text of a generated document. The window takes the new text into the document when
the contents are registered there. -/
def replaceContents (uri : Uri) (lines : List String) : Shell Unit := do
  change fun b => { b with contents := b.contents.replace uri lines }
  let b ← current
  b.contents.listeners.forM fun _ => Document.refresh uri (b.contents.textOf uri)

/-- Remembers the instruction set of a generated document, or that none is known. -/
def rememberInstructionSet (uri : Uri) (instructionSet : Option String) : Shell Unit :=
  change fun b => { b with
    instructionSets :=
      match instructionSet.filter (· ≠ "") with
      | some set => b.instructionSets.put uri.text set
      | none => b.instructionSets.remove uri.text }

def startSession (source generated : Uri) (index : LineIndex) (color : String) : Work Unit := do
  let (highlights, outcome) ←
    (← current).highlights.start DecorationCanvas.create source generated index color
  change fun b => { b with highlights }
  outcome

def report (source : Uri) (stderr : List Json) (offset : Number) : Work Unit := do
  let diagnostics ← Diagnostic.ofStderr offset stderr
  Diagnostic.publish source diagnostics
  if 0 < diagnostics.length then
    log [s!"[Compile] {diagnostics.length} compiler message(s) for {source.text}"]

/-- Publishes what a compiler made of the source of a run. -/
def publish (run : Compile.Run) (compiler : Compiler) (output : CompileOutput) : Work Unit := do
  let generated := run.uri.generated
  onHighlights (·.finish (Uri.sessionKey run.uri generated))
  replaceContents generated (output.asm.map (·.text))
  Document.displayGenerated generated ((← current).provided generated)
  Message.tellDone s!"Compilation done {compiler.name}"
  rememberInstructionSet generated compiler.instructionSet
  if run.config.liveCorrelation && run.source.isWhole then
    startSession run.uri generated (.ofLines (AnnotatedLine.ofAsm output.asm))
      run.config.highlightStyle
  report run.uri output.stderr (run.source.range.first - 1)

end AsmLens.Workbench
