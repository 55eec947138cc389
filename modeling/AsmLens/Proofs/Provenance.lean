import AsmLens.Proofs.Addresses
import AsmLens.Proofs.Outputs

/-!
# Where sessions come from

Each registered session was started for the output of one compilation, and it is about that output as long
as it is registered: its lookups are those of the output, and so is the text of the generated document.
Nothing else that is done to the contents touches the text of a document that has a session: publishing
for the same source ends the session first, and so does closing the document.
-/

namespace AsmLens

open Window

/-- A session is about an output of a run. -/
structure Entry.Describes (e : Entry DecorationCanvas) (run : Compile.Run) (output : CompileOutput)
    (c : Contents) : Prop where
  source : e.source = run.uri
  generated : e.generated = run.uri.generated
  text : c.texts.get? e.generated.text = some (Text.joinLines (output.asm.map (·.text)))
  index : e.session.index = .ofLines (AnnotatedLine.ofAsm output.asm)

theorem Entry.Describes.follows {e e' : Entry DecorationCanvas} {run : Compile.Run} {output : CompileOutput}
    {c c' : Contents} (h : e.Describes run output c) (hfollows : e.Follows e')
    (htext : c'.texts.get? e.generated.text = c.texts.get? e.generated.text) :
    e'.Describes run output c' where
  source := hfollows.source.trans h.source
  generated := hfollows.generated.trans h.generated
  text := by rw [hfollows.generated, htext, h.text]
  index := hfollows.session.index.trans h.index

/-- The output of a whole source comes, for a task that waits for it. -/
def Act.Brings (a : Act) (b : Workbench) (run : Compile.Run) (output : CompileOutput) : Prop :=
  ∃ named k language compiler arguments reply, a = .step (.reply named reply) ∧
    b.window.requestFor? named = some k ∧
    Job.compile run (.compiling k language compiler arguments) ∈ b.jobs ∧
    Compile.Accepts reply output ∧ run.source.isWhole = true

namespace Workbench

variable {b b' b'' : Workbench} {e' : Entry DecorationCanvas} {n : Notice}

/-- A session was registered before, and its generated document had the text that it has. -/
def Kept (b b' : Workbench) (e' : Entry DecorationCanvas) : Prop :=
  ∃ e ∈ b.highlights.entries, e.isLive = true ∧ e.Follows e' ∧
    b'.contents.texts.get? e.generated.text = b.contents.texts.get? e.generated.text

/-- All registered sessions were registered before. -/
def Keeps (b b' : Workbench) : Prop := ∀ e' ∈ b'.highlights.entries, e'.isLive = true → Kept b b' e'

instance : Frame Keeps where
  refl b e' he' hlive := ⟨e', he', hlive, .refl e', rfl⟩
  trans h h' e'' he'' hlive := by
    obtain ⟨e', he', hlive', hfollows', htext'⟩ := h' e'' he'' hlive
    obtain ⟨e, he, hlive, hfollows, htext⟩ := h e' he' hlive'
    rw [hfollows.generated, htext] at htext'
    exact ⟨e, he, hlive, hfollows.trans hfollows', htext'⟩

theorem keeps_of_follows (hcontents : b'.contents = b.contents)
    (hentries : List.Forall₂ Entry.Follows b.highlights.entries b'.highlights.entries) : Keeps b b' := by
  intro e' he' hlive
  obtain ⟨e, he, hfollows⟩ := forall₂_exists_left hentries he'
  exact ⟨e, he, hfollows.isLive hlive, hfollows, by rw [hcontents]⟩

theorem keeps_of_same (hcontents : b'.contents = b.contents) (hhighlights : b'.highlights = b.highlights) :
    Keeps b b' :=
  keeps_of_follows hcontents (hhighlights ▸ Controller.forall₂_follows_refl _)

/-- The text of a closed document is forgotten, but by then it has no session any more. -/
theorem Heard.keeps (h : Heard n b b') (hb : Wired b) : Keeps b b' := by
  obtain hcontents | ⟨uri, rfl, hregistered, hcontents⟩ := h.contents
  · exact keeps_of_follows hcontents h.entries
  · intro e' he' hlive
    obtain ⟨e, he, hfollows, hended, -⟩ := forall₂_exists_left (h.ended (hb.listening hregistered)) he'
    refine ⟨e, he, hfollows.isLive hlive, hfollows, ?_⟩
    have hne : uri.text ≠ e.generated.text := by
      intro heq
      rw [hended uri rfl (heq ▸ e.role?_generated)] at hlive
      nomatch hlive
    rw [hcontents]
    show (b.contents.texts.remove uri.text).get? _ = _
    rw [Table.get?_remove, if_neg hne]

variable {run : Compile.Run} {output : CompileOutput}

theorem Published.describes (h : Published run output b b') (k l : Nat) :
    (entryFor run output k l).Describes run output b'.contents := by
  refine ⟨rfl, rfl, ?_, rfl⟩
  rw [h.contents]
  show (b.contents.texts.put run.uri.generated.text _).get? run.uri.generated.text = _
  rw [Table.get?_put, if_pos rfl]

theorem Wired.key_of_generated {e : Entry DecorationCanvas} (hb : Wired b) (he : e ∈ b.highlights.entries)
    (heq : run.uri.generated.text = e.generated.text) :
    e.key = Uri.sessionKey run.uri run.uri.generated := by
  have hpaired := (hb.paired e he).generated
  rw [hpaired] at heq
  unfold Entry.key Uri.sessionKey
  rw [hpaired, heq, Uri.text_eq_of_generated heq]

/-- The text of a generated document is replaced, but by then its session has ended, whatever the source
was. -/
theorem Published.kept (h : Published run output b b') (hb : Wired b) (he' : e' ∈ b'.highlights.entries)
    (hlive : e'.isLive = true) :
    Kept b b' e' ∨ run.source.isWhole = true ∧ e'.Describes run output b'.contents := by
  obtain ⟨old, new, hentries, hends, -, hnew⟩ := h.entries
  rw [hentries] at he'
  rcases List.mem_append.1 he' with he' | he'
  · obtain ⟨e, he, hfollows, hended, -⟩ := forall₂_exists_left hends he'
    refine .inl ⟨e, he, hfollows.isLive hlive, hfollows, ?_⟩
    have hne : run.uri.generated.text ≠ e.generated.text := by
      intro heq
      rw [hended (decide_eq_true (hb.key_of_generated he heq))] at hlive
      nomatch hlive
    rw [h.contents]
    show (b.contents.texts.put run.uri.generated.text _).get? _ = _
    rw [Table.get?_put, if_neg hne]
  · obtain rfl | ⟨k, l, rfl, hwhole, -⟩ := hnew
    · nomatch he'
    · rw [List.mem_singleton.1 he']
      exact .inr ⟨hwhole, h.describes k l⟩

/-! ### What happens -/

theorem keeps_of_rests (h : b.Rests b') : Keeps b b' := by
  rw [Rests] at h
  rw [h]
  exact keeps_of_same rfl rfl

theorem keeps_invoke (id : String) (arguments : List Json) (b : Workbench) :
    Gives (invoke id arguments) b fun _ b' => Keeps b b' := by
  refine (invoke_commanded id arguments b).mono fun _ b' h => ?_
  obtain ⟨w, c, jobs, rfl, -, hentries⟩ := h
  exact keeps_of_follows rfl hentries

theorem keeps_dispose (b : Workbench) : Gives dispose b fun _ b' => Keeps b b' := by
  refine (dispose_disposes (b.highlights.dispose_gives b.window)).mono fun _ b' h => ?_
  obtain rfl | ⟨c, w, w', ⟨-, hended, -⟩, -, rfl⟩ := h
  · exact Frame.refl b'
  · -- All texts are given up, but no session is left that one of them could be missing to.
    intro e' he' hlive
    rw [hended e' he'] at hlive
    nomatch hlive

theorem Valid.kept_perform (hb : b.Valid) (step : Step) :
    ∀ e' ∈ (Workbench.perform step b).2.highlights.entries, e'.isLive = true →
      Kept b (Workbench.perform step b).2 e' ∨
      ∃ run output, (Act.step step).Brings b run output ∧
        e'.Describes run output (Workbench.perform step b).2.contents := by
  intro e' he' hlive
  have hkeeps : Keeps b { b with window := (step.perform b.window).2 } := keeps_of_same rfl rfl
  have hperform := hb.perform_within (R := Keeps) step
    (fun n _ b' hn hwired => Heard.keeps (onNotice_heard hn b') hwired) fun b b' jobs hrests _ =>
      Frame.trans (keeps_of_rests hrests) (keeps_of_same rfl rfl)
  obtain hkept | ⟨run, compiler, output, b₁, jobs, hdelivers, hpublished, -, hafter⟩ := hperform
  · exact .inl (Frame.trans hkeeps hkept e' he' hlive)
  · have hwired : Wired { b with window := (step.perform b.window).2 } :=
      hb.toWired.leaves (step.perform_gives b.window)
    rw [hafter] at he' ⊢
    rcases hpublished.kept hwired he' hlive with hkept | ⟨hwhole, hdescribes⟩
    · exact .inl hkept
    · obtain ⟨named, k, language, arguments, reply, hstep, hrequest, hjob, haccepts⟩ := hdelivers
      exact .inr ⟨run, output, ⟨named, k, language, compiler, arguments, reply, hstep, hrequest, hjob,
        haccepts, hwhole⟩, hdescribes⟩

theorem Valid.kept_after (hb : b.Valid) (a : Act) :
    ∀ e' ∈ (b.after a).highlights.entries, e'.isLive = true → Kept b (b.after a) e' ∨
      ∃ run output, a.Brings b run output ∧ e'.Describes run output (b.after a).contents := by
  cases a with
  | step step => exact hb.kept_perform step
  | invoke id arguments => exact fun e' he' hlive => .inl (keeps_invoke id arguments b e' he' hlive)
  | deactivate => exact fun e' he' hlive => .inl (keeps_of_same rfl rfl e' he' hlive)
  | dispose => exact fun e' he' hlive => .inl (keeps_dispose b e' he' hlive)

/-- Each registered session is about an output that has come for a whole source: the contents have its
text, and the lookups are those of its assembly. -/
theorem sessions_describe_outputs {w : Window} (hw : w.Fresh) (acts : List Act) :
    ∀ e ∈ (Workbench.run w acts).highlights.live, ∃ before a after run output,
      acts = before ++ a :: after ∧ a.Brings (Workbench.run w before) run output ∧
        e.Describes run output (Workbench.run w acts).contents := by
  induction acts using List.reverseRecOn with
  | nil => exact List.forall_mem_nil _
  | append_singleton acts a ih =>
    intro e he
    obtain ⟨he, hlive⟩ := List.mem_filter.1 he
    rw [run_concat] at he ⊢
    have hvalid := (reachable_run hw acts).valid
    obtain ⟨e₀, he₀, hlive₀, hfollows, htext⟩ | ⟨run, output, hbrings, hdescribes⟩ :=
      hvalid.kept_after a e he hlive
    · obtain ⟨before, a', after, run, output, hacts, hbrings, hdescribes⟩ :=
        ih e₀ (List.mem_filter.2 ⟨he₀, hlive₀⟩)
      refine ⟨before, a', after ++ [a], run, output, ?_, hbrings, hdescribes.follows hfollows htext⟩
      rw [hacts, List.append_assoc]
      rfl
    · exact ⟨acts, a, [], run, output, rfl, hbrings, hdescribes⟩

def sourceWindow : Window :=
  .ofDocument ⟨.file "/main.py", "f = lambda: 0\nf()", "/main.py", false, true⟩

/-- A source is compiled, up to the request for the output. -/
def compileActs : List Act :=
  [.invoke Command.compile.id [],
    .step (.reply none (.ok (some (.arr [.obj [("id", .str "python"), ("extensions", .arr [.str ".py"])]])))),
    .step (.pick none [0]),
    .step (.reply none (.ok (some (.arr [.obj [("id", .str "cpython")]])))),
    .step (.pick none [0]),
    .step (.enter none none)]

/-- An output of three lines, of which the last two came from the first line of the source. -/
def outputReply : Reply :=
  .ok (some (.obj [("asm", .arr [.obj [("text", .str "RESUME"), ("source", .null)],
    .obj [("text", .str "LOAD_CONST"), ("source", .obj [("line", .num 1)])],
    .obj [("text", .str "RETURN_VALUE"), ("source", .obj [("line", .num 1)])]])]))

/-- An output without assembly, and what its compiler says of the first line. -/
def remarkReply : Reply :=
  .ok (some (.obj [("asm", .arr []), ("stderr", .arr [.obj [("tag", .obj [("line", .num 1),
    ("text", .str "'f' is not used")])]])]))

theorem compiled_session_describes : ∃ e before a after run output,
    e ∈ (Workbench.run sourceWindow (compileActs ++ [.step (.reply none outputReply)])).highlights.live ∧
      compileActs ++ [.step (.reply none outputReply)] = before ++ a :: after ∧
      a.Brings (Workbench.run sourceWindow before) run output ∧
      e.Describes run output
        (Workbench.run sourceWindow (compileActs ++ [.step (.reply none outputReply)])).contents := by
  have hlive : (Workbench.run sourceWindow (compileActs ++ [.step (.reply none outputReply)])).highlights.live
      ≠ [] := by
    rw [← List.length_pos_iff]
    decide +kernel
  obtain ⟨e, he⟩ := List.exists_mem_of_ne_nil _ hlive
  obtain ⟨before, a, after, run, output, hacts, hbrings, hdescribes⟩ :=
    sessions_describe_outputs (fresh_ofDocument rfl) _ e he
  exact ⟨e, before, a, after, run, output, he, hacts, hbrings, hdescribes⟩

end Workbench

end AsmLens
