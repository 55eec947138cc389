import AsmLens.Diagnostic
import AsmLens.Label
import AsmLens.Service.Catalog
import AsmLens.Service.Output
import AsmLens.Service.Query
import AsmLens.Source

/-!
# Faults that can be told

A fault that ends a task is told to the user by its message. A fault that is a plain value need not
have one, but no computation on values ever fails with such a fault: `Tellable r` says that the
fault of `r`, should it fail, has a message, and this file shows it of everything that the commands
compute.
-/

namespace AsmLens

variable {α β : Type}

def Fault.HasMessage (fault : Fault) : Prop := ∃ text, fault.message = .ok text

/-- Should the computation fail, then with a fault that has a message. -/
def Tellable (r : Except Fault α) : Prop := ∀ e, r = .error e → e.HasMessage

theorem Fault.hasMessage_ofMessage (message : String) : (ofMessage message).HasMessage := ⟨_, rfl⟩

theorem Fault.hasMessage_noText : noText.HasMessage := ⟨_, rfl⟩

theorem Fault.hasMessage_noSuchLine : noSuchLine.HasMessage := ⟨_, rfl⟩

namespace Tellable

theorem ok (a : α) : Tellable (.ok a) := fun _ h => nomatch h

theorem error {e : Fault} (h : e.HasMessage) : Tellable (.error e : Except Fault α) := by
  intro e' he
  cases he
  exact h

theorem bind {r : Except Fault α} {f : α → Except Fault β} (h : Tellable r) (hf : ∀ a, Tellable (f a)) :
    Tellable (r >>= f) := by
  cases r with
  | ok a => exact hf a
  | error e => exact error (h e rfl)

theorem mapM {f : α → Except Fault β} (l : List α) (h : ∀ a ∈ l, Tellable (f a)) :
    Tellable (l.mapM f) := by
  induction l with
  | nil => exact ok []
  | cons a l ih =>
    rw [List.mapM_cons]
    refine (h a List.mem_cons_self).bind fun b => ?_
    exact (ih fun a' ha' => h a' (List.mem_cons_of_mem a ha')).bind fun bs => ok (b :: bs)

end Tellable

/-! ### Texts of values -/

theorem Json.tellable_text (v : Json) : Tellable v.text := by
  induction v using Json.text.induct (motive_2 := fun items => Tellable (memberTexts items)) with
  | case1 => exact .ok _
  | case2 b => exact .ok _
  | case3 x => exact .ok _
  | case4 s => exact .ok _
  | case5 items ih =>
    rw [Json.text]
    exact ih.bind fun texts => .ok _
  | case6 fields h =>
    rw [Json.text, if_pos h]
    exact .error Fault.hasMessage_noText
  | case7 fields h =>
    rw [Json.text, if_neg h]
    exact .ok _
  | case8 => exact .ok _
  | case9 items ih =>
    rw [memberTexts]
    exact ih.bind fun texts => .ok _
  | case10 item items hnull ih ihs =>
    rw [memberTexts]
    · exact ih.bind fun text => ihs.bind fun texts => .ok _
    · exact hnull

theorem Json.tellable_joined (separator : String) (items : List Json) :
    Tellable (joined separator items) := by
  have h : Tellable (memberTexts items) := by
    induction items with
    | nil => exact .ok _
    | cons item items ih =>
      unfold memberTexts
      split
      · exact .ok _
      · rename_i heq
        cases heq
        exact ih.bind fun texts => .ok _
      · rename_i heq
        cases heq
        exact (tellable_text _).bind fun text => ih.bind fun texts => .ok _
  exact h.bind fun texts => .ok _

theorem Fault.tellable_message (fault : Fault) : Tellable fault.message := by
  cases fault with
  | value v => exact v.tellable_text
  | _ => exact .ok _

theorem Fault.tellable_describe (fault : Fault) : Tellable fault.describe := by
  unfold Fault.describe
  split
  · exact .ok _
  · exact fault.tellable_message

/-! ### Labels -/

theorem Template.tellable_shown (item : Json) (name : String) : Tellable (shown item name) := by
  unfold shown
  split
  · exact .ok _
  · exact Json.tellable_joined _ _
  · exact Json.tellable_text _
  · exact .ok _

theorem Template.tellable_render (item : Json) (t : Template) : Tellable (render item t) := by
  induction t with
  | nil => exact .ok _
  | cons piece rest ih =>
    cases piece with
    | literal c => exact ih.bind fun s => .ok _
    | field name => exact (tellable_shown item name).bind fun s => ih.bind fun s' => .ok _

theorem Template.tellable_label (template : String) (item : Json) : Tellable (label template item) :=
  tellable_render item (parse template)

/-! ### What the service answers -/

theorem Language.tellable_read (entry : Json) : Tellable (read entry) := by
  unfold read
  split
  · exact .ok _
  · exact (Tellable.mapM _ fun v _ => v.tellable_text).bind fun extensions => .ok _

theorem Catalog.tellable_collect {read : Json → Except Fault (Option α)} (h : ∀ v, Tellable (read v))
    (entries : List Json) : Tellable (collect read entries) := by
  rw [collect_eq]
  refine (Tellable.mapM entries fun entry _ => ?_).bind fun items => .ok _
  split
  · exact h entry
  · exact .ok none

theorem Catalog.tellable_read {readEntry : Json → Except Fault (Option α)}
    (h : ∀ v, Tellable (readEntry v)) (what : String) (answer : Option Json) :
    Tellable (read what readEntry answer) := by
  unfold Catalog.read
  split
  · exact .ok _
  · exact (tellable_collect h _).bind fun items => .ok _

theorem Json.tellable_toNumber (v : Json) : Tellable v.toNumber := by
  cases v with
  | arr items => exact (tellable_text _).bind fun _ => .ok _
  | obj fields => exact (tellable_text _).bind fun _ => .ok _
  | _ => exact .ok _

theorem Diagnostic.tellable_tagColumn (tag : Json) : Tellable (tagColumn tag) := by
  unfold tagColumn
  dsimp only
  split
  · exact (Json.tellable_toNumber _).bind fun _ => .ok _
  · exact .ok _

theorem Diagnostic.tellable_ofEntry (offset : Number) (entry : Json) : Tellable (ofEntry offset entry) := by
  unfold ofEntry
  split
  · exact .error ⟨_, rfl⟩
  · split
    · exact .ok _
    · split
      · exact .ok _
      · exact ((tellable_tagColumn _).bind fun _ => .ok _).bind fun _ => .ok _

theorem Diagnostic.tellable_ofStderr (offset : Number) (entries : List Json) :
    Tellable (ofStderr offset entries) :=
  (Tellable.mapM entries fun entry _ => tellable_ofEntry offset entry).bind fun _ => .ok _

/-! ### Sources -/

theorem Source.tellable_ofLines (lines : List String) (selection : Selection)
    (range : Option LineRange) : Tellable (ofLines lines selection range) := by
  refine Tellable.bind ?_ fun chosen => .ok _
  unfold linesIn
  split
  · exact .ok _
  · exact .error Fault.hasMessage_noSuchLine

end AsmLens
