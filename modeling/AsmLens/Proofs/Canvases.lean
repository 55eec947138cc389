import AsmLens.Proofs.Correlation
import AsmLens.Proofs.Decorating

/-!
# What sessions rely on

Sessions are written for any kind of canvas. `LawfulCanvas` is what they rely on: drawing adds a line that
the document has, clearing removes all lines, and neither changes what documents have. Both kinds of canvas
are lawful. From it follows what a session shows after the cursor has come to a line or has left.
-/

namespace AsmLens

/-- Canvases on which nothing is drawn but lines that the document has. -/
class LawfulCanvas (ν : Type) [Canvas Action ν] where
  linesOn : ν → List Number
  hasLine : ν → Window → Number → Bool
  draw_gives : ∀ (v : ν) (line : Number) (w : Window), Gives (Canvas.draw v line : Action ν) w fun v' w' =>
    linesOn v' = linesOn v ++ [line].filter (hasLine v w) ∧ hasLine v' = hasLine v ∧
      ∀ u : ν, hasLine u w' = hasLine u w
  clear_gives : ∀ (v : ν) (w : Window), Gives (Canvas.clear v : Action ν) w fun v' w' =>
    linesOn v' = [] ∧ hasLine v' = hasLine v ∧ ∀ u : ν, hasLine u w' = hasLine u w

export LawfulCanvas (linesOn hasLine)

namespace LineSheet

theorem lineCount_add (sheet : LineSheet) (line : Number) : (sheet.add line).lineCount = sheet.lineCount := by
  unfold add
  split <;> rfl

theorem lines_add (sheet : LineSheet) (line : Number) :
    (sheet.add line).lines = sheet.lines ++ [line].filter fun l => Number.le 1 l && l.le sheet.lineCount := by
  unfold add
  rw [List.filter_singleton]
  split
  · rename_i h
    rw [h]
    rfl
  · rename_i h
    rw [Bool.eq_false_iff.2 h]
    exact (List.append_nil _).symm

end LineSheet

instance : LawfulCanvas LineSheet where
  linesOn := LineSheet.lines
  hasLine sheet _ line := Number.le 1 line && line.le sheet.lineCount
  draw_gives sheet line w := by
    refine ⟨sheet.lines_add line, ?_, fun _ => rfl⟩
    funext _ line'
    show (Number.le 1 line' && line'.le (sheet.add line).lineCount) = _
    rw [sheet.lineCount_add]
  clear_gives _ _ := ⟨rfl, rfl, fun _ => rfl⟩

namespace DecorationCanvas

theorem of_lineIn? {w : Window} {uri : Uri} {line : Number} {n : Nat} (h : lineIn? w uri line = some n) :
    line = (n : Number) := by
  unfold lineIn? at h
  obtain ⟨d, -, h⟩ := Option.bind_eq_some_iff.1 h
  obtain ⟨m, hm, h⟩ := Option.bind_eq_some_iff.1 h
  split at h
  · cases h
    exact Number.toNat?_eq_some_iff.1 hm
  · nomatch h

instance : LawfulCanvas DecorationCanvas where
  linesOn c := c.lines.map fun n : Nat => (n : Number)
  hasLine c w line := (lineIn? w c.uri line).isSome
  draw_gives c line w := by
    refine (c.draw_gives line w).mono fun c' w' h => ?_
    obtain ⟨hsame, hdraws, hlines, -⟩ := h
    refine ⟨?_, ?_, fun u => ?_⟩
    · rw [hlines, List.map_append]
      congr 1
      cases hline : lineIn? w c.uri line with
      | none =>
        rw [List.filter_singleton, hline]
        rfl
      | some n =>
        rw [List.filter_singleton, hline, of_lineIn? hline]
        rfl
    · rw [hsame.1]
    · rw [lineIn?_redecorates hdraws]
  clear_gives c w := by
    refine (c.clear_gives w).mono fun c' w' h => ?_
    obtain ⟨hsame, hdraws, hlines, -⟩ := h
    refine ⟨?_, ?_, fun u => ?_⟩
    · rw [hlines]
      rfl
    · rw [hsame.1]
    · rw [lineIn?_redecorates hdraws]

end DecorationCanvas

/-! ### Sessions on lawful canvases -/

namespace Session

variable {ν : Type} [Canvas Action ν]

theorem cursorMoved_of_ended (s : Session ν) (origin : Role) (line : Number) (hended : s.hasEnded = true)
    (w : Window) : Gives (s.cursorMoved origin line : Action _) w fun s' w' => s' = s ∧ w' = w := by
  unfold cursorMoved
  rw [if_pos hended]
  exact .pure ⟨rfl, rfl⟩

theorem cursorLeft_of_ended (s : Session ν) (origin : Role) (hended : s.hasEnded = true) (w : Window) :
    Gives (s.cursorLeft origin : Action _) w fun s' _ => s' = s := by
  unfold cursorLeft
  rw [if_pos hended]
  exact .pure rfl

variable [LawfulCanvas ν] {s s' : Session ν}

/-- Two states of a session, on the same documents and with the same lookups. -/
structure Resumes (s s' : Session ν) : Prop where
  index : s'.index = s.index
  has : ∀ role, hasLine (s'.shown role).canvas = hasLine (s.shown role).canvas
  live : s'.hasEnded = false → s.hasEnded = false

/-- One document of a session shows other lines, and the other document what it did. -/
structure Shows (s s' : Session ν) (role : Role) (l : List Number) : Prop where
  resumes : s.Resumes s'
  lines : linesOn (s'.shown role).canvas = l
  other : linesOn (s'.shown role.other).canvas = linesOn (s.shown role.other).canvas

theorem Resumes.refl (s : Session ν) : s.Resumes s := ⟨rfl, fun _ => rfl, id⟩

theorem shows_withShown (s : Session ν) (role : Role) {h : Highlights ν}
    (hhas : hasLine h.canvas = hasLine (s.shown role).canvas) :
    s.Shows (s.withShown role h) role (linesOn h.canvas) := by
  have hended := hasEnded_withShown s role h
  refine ⟨⟨index_withShown .., fun role' => ?_, fun hlive => hended.symm.trans hlive⟩, ?_, ?_⟩
  · rcases Role.eq_or_eq_other role role' with rfl | rfl
    · rw [shown_withShown, hhas]
    · rw [shown_withShown_other]
  · rw [shown_withShown]
  · rw [shown_withShown_other]

theorem Resumes.correlated (h : s.Resumes s') (origin : Role) (line : Number) :
    s'.correlated origin line = s.correlated origin line := by
  cases origin <;> unfold Session.correlated <;> dsimp only <;> rw [h.index]

theorem wipe_shows (s : Session ν) (role : Role) (w : Window) :
    Gives (s.wipe role : Action _) w fun s' w' => s.Shows s' role [] ∧ s'.hasEnded = s.hasEnded ∧
      ∀ u : ν, hasLine u w' = hasLine u w := by
  refine (LawfulCanvas.clear_gives (s.shown role).canvas w).bind fun v w' h => .pure ?_
  obtain ⟨hlines, hhas, hsame⟩ := h
  have hshows := s.shows_withShown role (h := ⟨v, []⟩) hhas
  exact ⟨hlines ▸ hshows, hasEnded_withShown .., hsame⟩

theorem foldlM_draw_shows (l : List Number) (v : ν) (w : Window) :
    Gives (l.foldlM Canvas.draw v : Action ν) w fun v' w' =>
      linesOn v' = linesOn v ++ l.filter (hasLine v w) ∧ hasLine v' = hasLine v ∧
        ∀ u : ν, hasLine u w' = hasLine u w := by
  induction l generalizing v w with
  | nil => exact .pure ⟨(List.append_nil _).symm, rfl, fun _ => rfl⟩
  | cons line l ih =>
    rw [List.foldlM_cons]
    refine (LawfulCanvas.draw_gives v line w).bind fun v₁ w₁ h₁ => (ih v₁ w₁).mono fun v' w' h' => ?_
    obtain ⟨hlines₁, hhas₁, hsame₁⟩ := h₁
    obtain ⟨hlines, hhas, hsame⟩ := h'
    refine ⟨?_, hhas.trans hhas₁, fun u => (hsame u).trans (hsame₁ u)⟩
    rw [hlines, hlines₁, hsame₁, hhas₁, List.append_assoc, ← List.filter_append]
    rfl

/-- The cursor has come to a line: the other document shows those of the lines that belong to it which it
has. -/
theorem cursorMoved_shows (s : Session ν) (origin : Role) (line : Number) (hlive : s.hasEnded = false)
    (w : Window) :
    Gives (s.cursorMoved origin line : Action _) w fun s' w' =>
      s.Shows s' origin.other ((s.correlated origin line).filter (hasLine (s.shown origin.other).canvas w)) ∧
      ∀ u : ν, hasLine u w' = hasLine u w := by
  unfold cursorMoved
  rw [if_neg (by rw [hlive]; exact Bool.false_ne_true)]
  refine (s.wipe_shows origin.other w).bind fun s₁ w₁ h₁ => ?_
  obtain ⟨⟨hresumes₁, hlines₁, hother₁⟩, -, hsame₁⟩ := h₁
  refine (foldlM_draw_shows (s₁.correlated origin line) (s₁.shown origin.other).canvas w₁).bind
    fun v w' h => .pure ?_
  obtain ⟨hlines, hhas, hsame⟩ := h
  obtain ⟨hresumes, hshown, hother⟩ :=
    s₁.shows_withShown origin.other (h := ⟨v, s₁.correlated origin line⟩) hhas
  refine ⟨⟨⟨hresumes.index.trans hresumes₁.index, fun role => (hresumes.has role).trans (hresumes₁.has role),
    fun hlive => hresumes₁.live (hresumes.live hlive)⟩, ?_, hother.trans hother₁⟩,
    fun u => (hsame u).trans (hsame₁ u)⟩
  rw [hshown, hlines, hlines₁, hresumes₁.correlated, hsame₁, hresumes₁.has]
  rfl

theorem cursorLeft_shows (s : Session ν) (origin : Role) (hlive : s.hasEnded = false) (w : Window) :
    Gives (s.cursorLeft origin : Action _) w fun s' _ => s.Shows s' origin.other [] := by
  unfold cursorLeft
  rw [if_neg (by rw [hlive]; exact Bool.false_ne_true)]
  exact (s.wipe_shows origin.other w).mono fun _ _ h => h.1

end Session

end AsmLens
