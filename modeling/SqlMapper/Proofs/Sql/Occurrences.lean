import SqlMapper.Proofs.Sql.Readings
import SqlMapper.Proofs.Sql.Renaming

/-!
The placeholders that a render comes to, each with the passes of the loops around it. The text of a
tidy fragment holds these, in this order and renamed by the passes around them, and no other.
-/

namespace SqlMapper

open Text

def Frame.bindings (frame : Frame) : Entries Value :=
  (frame.loop.item.map (·, frame.item)).toList ++ (frame.loop.index.map (·, frame.index)).toList

/-- A placeholder that a render comes to: its content as it is written in the fragment, and the
passes around it, the innermost first. -/
structure Occurrence where
  content : List Char
  frames : List Frame
  deriving DecidableEq

namespace Occurrence

def reading : Reading Occurrence where
  ofText s :=
    (((Placeholder.pieces? s.toList).getD []).filterMap Placeholder.Piece.content?).map (⟨·, []⟩)
  ofBinding _ _ := []
  within frame o := { o with frames := o.frames ++ [frame] }

def renamed (o : Occurrence) : List Char :=
  o.frames.foldl (fun content frame =>
    Loop.renameContent frame.loop.vars frame.number content) o.content

theorem renamed_within (frame : Frame) (o : Occurrence) : (reading.within frame o).renamed =
    Loop.renameContent frame.loop.vars frame.number o.renamed := by
  simp [reading, renamed]

theorem ofPass_reading (frame : Frame) (os : List Occurrence) :
    reading.ofPass frame os = os.map (reading.within frame) := by
  have hvar (var : Option String) (n : Nat) (v : Value) : reading.ofVar var n v = [] := by
    cases var <;> rfl
  rw [Reading.ofPass, hvar, hvar]
  rfl

end Occurrence

structure Loop.Tidy (loop : Loop) : Prop where
  opening : Placeholder.isPlainText loop.opening
  closing : Placeholder.isPlainText loop.closing
  separator : Placeholder.isPlainText loop.separator
  vars : ∀ var ∈ loop.vars, Loop.IsVariable var

/-- A text whose placeholders are all closed, with plain characters around them and no property that
looks like a generated name. -/
def Placeholder.Tidy (s : String) : Prop :=
  ∃ contents, Carries s.toList contents ∧
    ∀ content ∈ contents, ¬ Loop.isGenerated (property content)

def Shape.tidy : Shape Unit where
  text _ s := Placeholder.Tidy s
  trim _ rule := rule.isPlain
  binding := False
  loop _ loop := loop.Tidy
  inner _ _ := ()

/-- A fragment without bound names in which hash signs, braces and backslashes stand in closed
placeholders of its texts and nowhere else, and loop variables have proper names. -/
def Fragment.Tidy (f : Fragment) : Prop := f.HasShape .tidy ()

def Occurrence.StandIn (texts : List String) (os : List Occurrence) : Prop :=
  Placeholder.CarriesAll texts (os.map Occurrence.renamed)

namespace Occurrence.StandIn

open Placeholder

variable {texts texts' : List String} {os os' : List Occurrence}

theorem nil : StandIn [] [] := CarriesAll.nil

theorem append (h : StandIn texts os) (h' : StandIn texts' os') :
    StandIn (texts ++ texts') (os ++ os') := by
  unfold StandIn
  rw [List.map_append]
  exact CarriesAll.append h h'

theorem carries_joined (h : StandIn texts os) :
    Carries (Context.joined texts).toList (os.map Occurrence.renamed) :=
  CarriesAll.intercalate (by decide) h

theorem visible {s : String} (h : Carries s.toList (os.map Occurrence.renamed)) :
    StandIn (Text.visible s) os := by
  unfold Text.visible
  split
  -- A blank text has no placeholder.
  · rename_i hblank
    obtain rfl : os = [] := List.map_eq_nil_iff.mp (h.eq_nil_of_blank hblank)
    exact nil
  · refine CarriesAll.singleton ?_
    rw [toList_trim]
    exact h.trimChars

end Occurrence.StandIn

namespace Occurrence

open Placeholder

theorem carries_ofText {s : String} (h : Placeholder.Tidy s) :
    Carries s.toList ((reading.ofText s).map renamed) := by
  obtain ⟨_, ⟨ps, htext, hps, rfl⟩, -⟩ := h
  have hpieces : Placeholder.pieces? s.toList = some ps := by
    rw [← htext, pieces?_text hps]
  have hcontents : (reading.ofText s).map renamed = ps.filterMap Piece.content? := by
    dsimp only [reading]
    rw [hpieces, Option.getD_some, List.map_map]
    exact List.map_id _
  exact ⟨ps, htext, hps, hcontents.symm⟩

def texts : TextAccount reading .tidy where
  StandIn _ := StandIn
  InPass _ _ text os := Carries text.toList (os.map renamed)
  InPasses _ _ := StandIn
  nil _ := .nil
  append := .append
  text h := .visible (carries_ofText h)
  trim h hin := .visible (Trim.carries_apply h hin.carries_joined)
  binding h := h.elim
  pass {_ loop n index item _ text os} _ hin htext := by
    have hrenamed := Loop.carries_rename hin.carries_joined htext
    simpa [ofPass_reading, renamed_within, Function.comp_def] using hrenamed
  passesNil _ _ := .nil
  passesCons {_ _ text os _ _} _ htext hmore := by
    split
    -- The text of a pass is left out if it is blank, and then it has no placeholder.
    · rename_i hblank
      have hnone : os = [] := List.map_eq_nil_iff.mp (htext.eq_nil_of_blank hblank)
      simpa [hnone] using hmore
    · have hfirst : StandIn [text] os := CarriesAll.singleton htext
      exact hfirst.append hmore
  around {_ loop parts os} hloop hparts := by
    -- The texts around and between those of the passes are plain.
    refine .visible ?_
    rw [String.toList_append, String.toList_append]
    exact ((CarriesAll.intercalate hloop.separator hparts).plain_append
      (List.all_eq_true.mp hloop.opening)).append_plain (List.all_eq_true.mp hloop.closing)

end Occurrence
end SqlMapper
