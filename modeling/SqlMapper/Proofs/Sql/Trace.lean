import SqlMapper.Proofs.Sql.Readings
import SqlMapper.Proofs.Sql.Seams

/-!
The tokens and the bound names that a render comes to. Every loop around a token scans it once and
one more scan follows, so an escaped token stays literal if it has more backslashes than loops
around it.
-/

namespace SqlMapper

open Text Placeholder

def Placeholder.Token.scanned (t : Token) (frames : List Frame) : Token :=
  frames.foldl (fun t frame => t.rescanned frame.loop.vars frame.number) t

inductive Event where
  | token (t : Token) (frames : List Frame)
  /-- A name that is bound, and stays bound when the loops around are done. -/
  | bound (name : String) (v : Value)
  deriving DecidableEq

namespace Event

def reading : Reading Event where
  ofText s := (((bits? s.toList).getD []).filterMap Bit.token?).map (token · [])
  ofBinding name v := [bound name v]
  within
    | frame, token t frames => token t (frames ++ [frame])
    | _, bound name v => bound name v

def token? : Event → Option Token
  | token t frames => some (t.scanned frames)
  | bound _ _ => none

def property? (e : Event) : Option String :=
  e.token?.bind Token.property?

theorem token?_within (frame : Frame) (e : Event) : (reading.within frame e).token? =
    e.token?.map (Token.rescanned frame.loop.vars frame.number) := by
  cases e with
  | token t frames => simp [reading, token?, Token.scanned]
  | bound name v => rfl

/-- A pass scans each token once. What it binds is no token. -/
theorem filterMap_ofPass (frame : Frame) (events : List Event) :
    (reading.ofPass frame events).filterMap token? =
      (events.filterMap token?).map (Token.rescanned frame.loop.vars frame.number) := by
  have hvar (var : Option String) (n : Nat) (v : Value) :
      (reading.ofVar var n v).filterMap token? = [] := by
    cases var <;> rfl
  rw [Reading.ofPass, List.filterMap_append, List.filterMap_append, hvar, hvar, List.nil_append,
    List.nil_append, List.filterMap_map, List.map_filterMap]
  exact congrArg (events.filterMap ·) (funext (token?_within frame))

end Event

def Fragment.events? (f : Fragment) (parameter : Value) (databaseId : Option String) :
    Option (List Event) :=
  f.reading? Event.reading parameter databaseId

def Placeholder.Complete (place : Place) (s : String) : Prop :=
  ∃ bits, bits? s.toList = some bits ∧ ∀ b ∈ bits, b.fits place

structure Loop.Quiet (place : Place) (loop : Loop) : Prop where
  opening : Bears place loop.opening.toList []
  openingLast : ∀ c ∈ loop.opening.toList.getLast?, isFirm c
  separator : Separates (place.within loop) loop.separator
  closing : Bears place loop.closing.toList []
  closingHead : '\x7b' ∉ loop.closing.toList.head?

theorem Loop.quiet_of_plain {place : Place} {loop : Loop} (hopening : isPlainText loop.opening)
    (hseparator : isPlainText loop.separator) (hclosing : isPlainText loop.closing) :
    loop.Quiet place :=
  have hends : Separates place loop.opening := .of_plain hopening
  have hends' : Separates place loop.closing := .of_plain hclosing
  ⟨hends.bears, hends.last, .of_plain hseparator, hends'.bears, hends'.head⟩

def Shape.complete : Shape Place where
  text place s := Placeholder.Complete place s
  trim place rule := rule.Quiet place
  binding := True
  loop place loop := loop.Quiet place
  inner loop place := place.within loop

/-- A fragment whose placeholders stand in its texts, are closed there, and stay whole: no trim cuts
through one, and what trims and loops write joins none. -/
def Fragment.Complete (place : Place) (f : Fragment) : Prop := f.HasShape .complete place

def Event.StandIn (place : Place) (texts : List String) (events : List Event) : Prop :=
  Bears place (Context.joined texts).toList (events.filterMap Event.token?)

namespace Event.StandIn

variable {place : Place} {texts texts' : List String} {events events' : List Event}

theorem nil (place : Place) : StandIn place [] [] := Bears.nil place

theorem append (h : StandIn place texts events) (h' : StandIn place texts' events') :
    StandIn place (texts ++ texts') (events ++ events') := by
  unfold StandIn
  rw [List.filterMap_append]
  have hblank : Separates place " " := .of_plain (by decide)
  exact Bears.intercalate_append hblank (fun hempty => nomatch hempty) h h'

/-- What is written of a text has its tokens. -/
theorem visible {s : String} (h : Bears place s.toList (events.filterMap token?)) :
    StandIn place (Text.visible s) events := by
  unfold Text.visible
  split
  -- A blank text has no token.
  · rename_i hblank
    rw [StandIn, h.eq_nil_of_blank hblank]
    exact Bears.nil place
  · rw [StandIn, Context.joined, String.intercalate_singleton, toList_trim]
    exact (Bears.cuttable place _).trimChars h

end Event.StandIn

namespace Event

theorem bears_ofText {place : Place} {s : String} (h : Placeholder.Complete place s) :
    Bears place s.toList ((reading.ofText s).filterMap token?) := by
  obtain ⟨bits, hbits, hfits⟩ := h
  have htokens : (reading.ofText s).filterMap token? = bits.filterMap Bit.token? := by
    dsimp only [reading]
    rw [hbits, Option.getD_some, List.filterMap_map]
    exact List.filterMap_some
  rw [htokens]
  exact Bears.of_bits? hbits hfits

def texts : TextAccount reading .complete where
  StandIn := StandIn
  InPass place loop text events :=
    Bears (place.within loop) text.toList (events.filterMap token?)
  InPasses place loop parts events :=
    Bears (place.within loop) (loop.separator.intercalate parts).toList (events.filterMap token?)
  nil := .nil
  append := .append
  text h := .visible (bears_ofText h)
  trim h hin := .visible (Trim.bears_apply h hin)
  binding _ place _ _ := .nil place
  pass _ hin htext := by
    rw [filterMap_ofPass]
    exact Loop.bears_rename hin htext
  passesNil _ _ := Bears.nil _
  passesCons {place loop text events parts others} hloop htext hmore := by
    have hjoined : loop.separator = "" → place.within loop = .joined := fun hempty =>
      if_pos (.inl hempty)
    rw [List.filterMap_append]
    split
    -- The text of a pass is left out if it is blank, and then it has no token.
    · rename_i hblank
      rw [htext.eq_nil_of_blank hblank]
      exact hmore
    · have hfirst : Bears (place.within loop) (loop.separator.intercalate [text]).toList
          (events.filterMap token?) := by
        rw [String.intercalate_singleton]
        exact htext
      exact Bears.intercalate_append hloop.separator hjoined hfirst hmore
  around {place loop parts events} hloop hparts := by
    have hopened : Bears place (loop.opening ++ loop.separator.intercalate parts).toList
        (events.filterMap token?) := by
      rw [String.toList_append]
      exact hloop.opening.append_of_firm hparts.of_within hloop.openingLast
    refine .visible ?_
    rw [String.toList_append]
    exact hopened.append_bare hloop.closing hloop.closingHead

end Event

namespace Fragment

/-- A render that goes well can be read, with the same names bound in the end, and the statement
that a complete fragment writes has the tokens of its events and no other. -/
theorem run_events {f : Fragment} {parameter : Value} {databaseId : Option String} {took : Bool}
    {ctx : Context} (h : f.render.run (Context.start parameter databaseId) = (.ok took, ctx)) :
    ∃ events, (f.read Event.reading).run (Context.start parameter databaseId) =
        (.ok events, ctx.bare) ∧
      (f.Complete .outside → Bears .outside ctx.sql.toList (events.filterMap Event.token?)) := by
  obtain ⟨events, texts, hread, hsql, hin⟩ := Event.texts.run_read h .outside
  refine ⟨events, hread, fun hf => ?_⟩
  rw [hsql, toList_trim]
  exact (Bears.cuttable _ _).trimChars (hin hf)

end Fragment

end SqlMapper
