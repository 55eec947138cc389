import AsmLens.Proofs.Addresses
import AsmLens.Proofs.Records
import AsmLens.Proofs.Steadiness
import Mathlib.Logic.Function.Basic

/-!
# The ledger of outputs

`Workbench.ledger` is what is recorded of outputs: the contents, the instruction sets, the registered
sessions and the compiler messages, each as a function of what it is kept under. When no call of the host
was made to fail, publishing an output changes the ledger as `Ledger.record` says, which writes under the
addresses of the run and its session key only. So outputs for different sources can be recorded in any
order.
-/

namespace AsmLens

open Window

/-- What is recorded of outputs. -/
@[ext]
structure Ledger where
  contents : String → Option String
  instructionSets : String → Option String
  /-- The two documents and the index of the registered sessions with a key. -/
  sessions : String → List (Uri × Uri × LineIndex)
  diagnostics : String → Option (List Diagnostic)

def Entry.link {ν : Type} (e : Entry ν) : Uri × Uri × LineIndex := (e.source, e.generated, e.session.index)

/-- What the sessions with a key link that have not ended. -/
def links (entries : List (Entry DecorationCanvas)) (key : String) : List (Uri × Uri × LineIndex) :=
  (entries.filter fun e => e.isLive && e.key = key).map Entry.link

def Compile.Run.links (run : Compile.Run) (output : CompileOutput) : List (Uri × Uri × LineIndex) :=
  if run.isLinked then [(run.uri, run.uri.generated, .ofLines (AnnotatedLine.ofAsm output.asm))] else []

open Function (update update_apply update_comm update_eq_self update_of_ne update_self)

namespace Ledger

/-- An output is recorded. Its compiler messages stay those of an older one when they cannot be read. -/
def record (run : Compile.Run) (compiler : Compiler) (output : CompileOutput) (l : Ledger) : Ledger where
  contents := update l.contents run.uri.generated.text (some (Text.joinLines (output.asm.map (·.text))))
  instructionSets := update l.instructionSets run.uri.generated.text compiler.knownSet?
  sessions := update l.sessions (Uri.sessionKey run.uri run.uri.generated) (run.links output)
  diagnostics := update l.diagnostics run.uri.text
    ((run.messages? output).or (l.diagnostics run.uri.text))

section Record

variable (run : Compile.Run) (compiler : Compiler) (output : CompileOutput) (l : Ledger)

theorem record_contents : (l.record run compiler output).contents run.uri.generated.text =
    some (Text.joinLines (output.asm.map (·.text))) := by
  simp only [record, update_self]

theorem record_instructionSets :
    (l.record run compiler output).instructionSets run.uri.generated.text = compiler.knownSet? := by
  simp only [record, update_self]

theorem record_sessions :
    (l.record run compiler output).sessions (Uri.sessionKey run.uri run.uri.generated) = run.links output := by
  simp only [record, update_self]

theorem record_diagnostics : (l.record run compiler output).diagnostics run.uri.text =
    (run.messages? output).or (l.diagnostics run.uri.text) := by
  simp only [record, update_self]

end Record

/-- Outputs for different sources do not meet. -/
theorem record_comm {run run' : Compile.Run} (hne : run.uri.text ≠ run'.uri.text)
    (compiler compiler' : Compiler) (output output' : CompileOutput) (l : Ledger) :
    (l.record run compiler output).record run' compiler' output' =
      (l.record run' compiler' output').record run compiler output := by
  have hgenerated : run.uri.generated.text ≠ run'.uri.generated.text :=
    fun h => hne (Uri.text_eq_of_generated h)
  have hkey : Uri.sessionKey run.uri run.uri.generated ≠ Uri.sessionKey run'.uri run'.uri.generated :=
    fun h => hne (Uri.text_eq_of_sessionKey h)
  ext1
  · exact update_comm hgenerated _ _ _
  · exact update_comm hgenerated _ _ _
  · exact update_comm hkey _ _ _
  · simp only [record]
    rw [update_of_ne hne.symm, update_of_ne hne]
    exact update_comm hne _ _ _

def recordAll (run : Compile.Run) (outputs : List (Compiler × CompileOutput)) (l : Ledger) : Ledger :=
  outputs.foldl (fun l output => l.record run output.1 output.2) l

theorem recordAll_nil (run : Compile.Run) (l : Ledger) : l.recordAll run [] = l := rfl

theorem recordAll_cons (run : Compile.Run) (output : Compiler × CompileOutput)
    (outputs : List (Compiler × CompileOutput)) (l : Ledger) :
    l.recordAll run (output :: outputs) = (l.record run output.1 output.2).recordAll run outputs :=
  List.foldl_cons

theorem recordAll_append (run : Compile.Run) (outputs outputs' : List (Compiler × CompileOutput))
    (l : Ledger) :
    l.recordAll run (outputs ++ outputs') = (l.recordAll run outputs).recordAll run outputs' :=
  List.foldl_append

theorem recordAll_comm {run run' : Compile.Run} (hne : run.uri.text ≠ run'.uri.text)
    (outputs outputs' : List (Compiler × CompileOutput)) (l : Ledger) :
    (l.recordAll run outputs).recordAll run' outputs' =
      (l.recordAll run' outputs').recordAll run outputs := by
  have hone : ∀ (output' : Compiler × CompileOutput) (l : Ledger),
      (l.recordAll run outputs).record run' output'.1 output'.2 =
        (l.record run' output'.1 output'.2).recordAll run outputs := by
    intro output'
    induction outputs with
    | nil =>
      intro l
      rw [recordAll_nil, recordAll_nil]
    | cons output outputs ih =>
      intro l
      rw [recordAll_cons, recordAll_cons, ih, record_comm hne]
  induction outputs' generalizing l with
  | nil => rw [recordAll_nil, recordAll_nil]
  | cons output' outputs' ih => rw [recordAll_cons, recordAll_cons, hone, ih]

end Ledger

namespace Workbench

def ledger (b : Workbench) : Ledger where
  contents := b.contents.texts.get?
  instructionSets := b.instructionSets.get?
  sessions := links b.highlights.entries
  diagnostics := b.window.diagnostics.get?

variable {run : Compile.Run} {compiler : Compiler} {output : CompileOutput} {b b' : Workbench}

theorem ledger_of_rests (h : b.Rests b') (hdiagnostics : b'.window.diagnostics = b.window.diagnostics) :
    b'.ledger = b.ledger := by
  rw [Rests] at h
  unfold ledger
  rw [hdiagnostics, h]

/-! ### Sessions -/

theorem links_cons (e : Entry DecorationCanvas) (l : List (Entry DecorationCanvas)) (key : String) :
    links (e :: l) key = (if e.isLive ∧ e.key = key then [e.link] else []) ++ links l key := by
  unfold links
  by_cases he : e.isLive ∧ e.key = key
  · rw [if_pos he, List.filter_cons_of_pos (by simpa using he)]
    rfl
  · rw [if_neg he, List.filter_cons_of_neg (by simpa using he)]
    rfl

theorem link_of_ended {key k : String} {e e' : Entry DecorationCanvas}
    (h : Controller.EndsWhere (fun e => e.key = key) e e') :
    (if e'.isLive ∧ e'.key = k then [e'.link] else []) =
      if k = key then [] else if e.isLive ∧ e.key = k then [e.link] else [] := by
  obtain ⟨hfollows, hended, hsame⟩ := h
  have hkey : e'.key = e.key := Entry.key_eq hfollows.source hfollows.generated
  by_cases he : e.key = key
  · have hover : ¬ (e'.isLive ∧ e'.key = k) := fun h =>
      Bool.false_ne_true ((hended (decide_eq_true he)).symm.trans h.1)
    rw [if_neg hover]
    by_cases hk : k = key
    · rw [if_pos hk]
    · rw [if_neg hk, if_neg fun h => hk (h.2.symm.trans he)]
  · rw [hsame (decide_eq_false he)]
    by_cases hk : k = key
    · rw [if_pos hk, if_neg fun h => he (h.2.trans hk)]
    · rw [if_neg hk]

theorem links_of_ended {key : String} {l l' : List (Entry DecorationCanvas)}
    (h : List.Forall₂ (Controller.EndsWhere fun e => e.key = key) l l') :
    links l' = update (links l) key [] := by
  induction h with
  | nil => exact (update_eq_self key (links [])).symm
  | cons hends _ ih =>
    funext k
    rw [links_cons, ih, link_of_ended hends, update_apply, update_apply, links_cons]
    split <;> rfl

theorem links_of_entries {entries old : List (Entry DecorationCanvas)} (hended : Ended run b old)
    (hnew : if run.isLinked then ∃ k l, entries = old ++ [entryFor run output k l] else entries = old) :
    links entries =
      update (links b.highlights.entries) (Uri.sessionKey run.uri run.uri.generated) (run.links output) := by
  unfold Compile.Run.links
  split at hnew
  · rename_i hlinked
    obtain ⟨k, l, rfl⟩ := hnew
    funext key
    have hentry : links [entryFor run output k l] key =
        if Uri.sessionKey run.uri run.uri.generated = key then
          [(run.uri, run.uri.generated, .ofLines (AnnotatedLine.ofAsm output.asm))] else [] := by
      rw [links_cons]
      by_cases hkey : Uri.sessionKey run.uri run.uri.generated = key
      · rw [if_pos hkey, if_pos ⟨rfl, hkey⟩]
        rfl
      · rw [if_neg hkey, if_neg fun h => hkey h.2]
        rfl
    have hadd : links (old ++ [entryFor run output k l]) key =
        links old key ++ links [entryFor run output k l] key := by
      unfold links
      rw [List.filter_append, List.map_append]
    rw [hadd, hentry, links_of_ended hended, if_pos hlinked]
    by_cases hkey : Uri.sessionKey run.uri run.uri.generated = key
    · subst hkey
      rw [if_pos rfl, update_self, update_self]
      rfl
    · rw [if_neg hkey, update_of_ne (Ne.symm hkey), update_of_ne (Ne.symm hkey), List.append_nil]
  · rename_i hlinked
    rw [hnew, if_neg hlinked]
    exact links_of_ended hended

/-- Publishing an output records it. -/
theorem Recorded.ledger (hrecorded : Recorded run compiler output b b')
    (hpublished : Published run output b b') (hcalm : b.window.Calm) :
    b'.ledger = b.ledger.record run compiler output := by
  cases hrecorded with
  -- Only a failure of the host keeps an output from being recorded as a whole.
  | stopped _ harmed =>
    obtain ⟨call, -, harmed⟩ := harmed
    exact absurd harmed hcalm.not_armed
  | unlinked _ _ harmed => exact absurd harmed hcalm.not_armed
  | reported hsets hdiagnostics hentries _ _ =>
    ext1
    · funext address
      simp only [Workbench.ledger, Ledger.record, update_apply]
      rw [hpublished.contents]
      show (b.contents.texts.put run.uri.generated.text _).get? address = _
      rw [Table.get?_put]
      simp only [eq_comm]
    · funext address
      simp only [Workbench.ledger, Ledger.record, update_apply]
      rw [hsets address]
      unfold setsWith
      simp only [eq_comm]
    · obtain ⟨old, hended, hnew⟩ := hentries
      exact links_of_entries hended hnew
    · funext address
      simp only [Workbench.ledger, Ledger.record, update_apply]
      rw [hdiagnostics address]
      by_cases haddress : run.uri.text = address
      · rw [if_pos haddress, if_pos haddress.symm, haddress]
      · rw [if_neg haddress, if_neg (Ne.symm haddress), Option.none_or]

theorem publish_ledger (run : Compile.Run) (compiler : Compiler) (output : CompileOutput) (hb : b.Wired)
    (hcalm : b.window.Calm) :
    Ends (publish run compiler output) b
      (fun _ b' => b'.window.Calm ∧ b'.ledger = b.ledger.record run compiler output)
      fun _ b' => b'.window.Calm ∧ b'.ledger = b.ledger.record run compiler output := by
  have hafter : ∀ b', (Published run output b b' ∧ (Links run b → Linked run output b b')) ∧
      Recorded run compiler output b b' →
        b'.window.Calm ∧ b'.ledger = b.ledger.record run compiler output := by
    rintro b' ⟨⟨hpublished, -⟩, hrecorded⟩
    exact ⟨fun call => hpublished.window.unarmed call (hcalm call), hrecorded.ledger hpublished hcalm⟩
  have hpublish := publish_ends run compiler output b hb.sound hb.draws
  exact (hpublish.and (publish_records run compiler output b hb.sound hb.draws)).mono
    (fun _ b' => hafter b') fun _ b' => hafter b'

end Workbench

end AsmLens
