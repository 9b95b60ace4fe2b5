import Mathlib.Data.List.Chain
import SqlMapper.Proofs.Sql.Slots

/-!
SQL text put together from literals and placeholders. With a backslash before each sign that would
open a placeholder, any literal stands for itself, and a scan gives every part back.
-/

namespace SqlMapper.Placeholder

open Text

def escape : List Char → List Char
  | [] => []
  | '#' :: '\x7b' :: rest => '\\' :: '#' :: '\x7b' :: escape rest
  | c :: rest => c :: escape rest

inductive Part where
  | literal (text : String)
  | slot (content : String)

namespace Part

def written : Part → List Char
  | literal text => escape text.toList
  | slot content => write content.toList

def shown : Part → List Char
  | literal text => text.toList
  | slot _ => ['?']

/-- What a placeholder names: its content up to the first comma, trimmed. -/
def named? : Part → Option String
  | literal _ => none
  | slot content => some (trim (.ofList (before ',' content.toList)))

def IsClosed : Part → Prop
  | literal _ => True
  | slot content => '\x7d' ∉ content.toList

def Precedes : Part → Part → Prop
  | literal _, literal _ => False
  | literal text, slot _ => text.toList.getLast? ≠ some '\\'
  | slot _, _ => True

def pieces : Part → List Piece
  | literal text => text.toList.map .char
  | slot content => [.slot content.toList]

end Part

/-- A scan of this text is at its end, or begins with a placeholder. -/
def IsOpening (next : List Char) : Prop :=
  next = [] ∨ ∃ rest, next = '#' :: '\x7b' :: rest

/-- A character stands for itself where no placeholder begins, escaped or not. -/
theorem pieces?_char_cons {c : Char} {rest : List Char}
    (hslot : ∀ r, c :: rest ≠ '#' :: '\x7b' :: r)
    (hescape : ∀ r, c :: rest ≠ '\\' :: '#' :: '\x7b' :: r) :
    pieces? (c :: rest) = (pieces? rest).map (.char c :: ·) := by
  rw [pieces?.eq_def]
  split
  · rename_i heq
    exact absurd heq (List.cons_ne_nil c rest)
  · rename_i r heq
    exact absurd heq (hescape r)
  · rename_i r heq
    exact absurd heq (hslot r)
  · rename_i heq
    obtain ⟨rfl, rfl⟩ := List.cons.inj heq
    rfl

theorem pieces?_escaped_cons (rest : List Char) :
    pieces? ('\\' :: '#' :: '\x7b' :: rest) =
      (pieces? rest).map ([.char '#', .char '\x7b'] ++ ·) := by
  rw [pieces?]

section Escape

variable {text next : List Char}

/-- Only a text that starts with a brace is written with a brace at its start. -/
theorem head?_escape_append (hnext : IsOpening next) {rest : List Char}
    (h : escape text ++ next = '\x7b' :: rest) : ∃ tail, text = '\x7b' :: tail := by
  unfold escape at h
  split at h
  · rcases hnext with rfl | ⟨tail, rfl⟩
    · exact nomatch h
    · exact nomatch h
  · exact nomatch h
  · rename_i c tail _
    obtain rfl : c = '\x7b' := (List.cons.inj h).1
    exact ⟨tail, rfl⟩

/-- An opening sign that no backslash precedes is none of an escaped text. -/
theorem eq_nil_of_escape_append {rest : List Char}
    (hnext : IsOpening next) (h : escape text ++ next = '#' :: '\x7b' :: rest) :
    text = [] ∧ next ≠ [] := by
  unfold escape at h
  split at h
  · refine ⟨rfl, ?_⟩
    rintro rfl
    exact nomatch h
  · exact nomatch h
  · rename_i c tail hplain
    obtain ⟨rfl, htail⟩ := List.cons.inj h
    obtain ⟨tail, rfl⟩ := head?_escape_append hnext htail
    exact absurd rfl (hplain tail rfl)

/-- An escaped text is read to its end as the text itself, before whatever may follow it. -/
theorem pieces?_escape_append (hnext : IsOpening next)
    (hlast : next ≠ [] → text.getLast? ≠ some '\\') :
    pieces? (escape text ++ next) = (pieces? next).map (text.map .char ++ ·) := by
  -- On the text, as it is escaped: an opening sign at once, and any other character alone.
  fun_induction escape text with
  | case1 =>
    simp
  | case2 rest ih =>
    have hrest : next ≠ [] → rest.getLast? ≠ some '\\' := by
      intro hne heq
      refine hlast hne ?_
      rw [List.getLast?_cons_cons, List.getLast?_cons, heq]
      rfl
    simp only [List.cons_append]
    rw [pieces?_escaped_cons, ih hrest, Option.map_map]
    rfl
  | case3 c rest hplain ih =>
    have hrest : next ≠ [] → rest.getLast? ≠ some '\\' := by
      intro hne heq
      refine hlast hne ?_
      rw [List.getLast?_cons, heq]
      rfl
    rw [List.cons_append, pieces?_char_cons, ih hrest, Option.map_map]
    · rfl
    -- The character opens nothing, as it did not in the text.
    · intro r heq
      obtain ⟨rfl, hbrace⟩ := List.cons.inj heq
      obtain ⟨tail, rfl⟩ := head?_escape_append hnext hbrace
      exact hplain tail rfl rfl
    -- Nor does it escape: an opening sign without a backslash of its own comes after the text.
    · intro r heq
      obtain ⟨rfl, hopens⟩ := List.cons.inj heq
      obtain ⟨rfl, hne⟩ := eq_nil_of_escape_append hnext hopens
      exact hlast hne rfl

end Escape

namespace Part

variable {parts : List Part}

/-- What follows a literal is the end or a placeholder. -/
theorem isOpening_of_isChain {text : String} (h : (literal text :: parts).IsChain Precedes) :
    IsOpening (parts.flatMap written) ∧
      (parts.flatMap written ≠ [] → text.toList.getLast? ≠ some '\\') := by
  rcases parts with _ | ⟨next | content, parts⟩
  · exact ⟨.inl rfl, fun hne => absurd rfl hne⟩
  · exact (List.isChain_cons_cons.mp h).1.elim
  · have hlast : text.toList.getLast? ≠ some '\\' := (List.isChain_cons_cons.mp h).1
    refine ⟨.inr ⟨content.toList ++ '\x7d' :: parts.flatMap written, ?_⟩, fun _ => hlast⟩
    simp [written, write]

/-- A scan finds the parts that were written, each as it was meant. -/
theorem pieces?_written (hclosed : ∀ part ∈ parts, part.IsClosed)
    (hchain : parts.IsChain Precedes) :
    pieces? (parts.flatMap written) = some (parts.flatMap pieces) := by
  -- On the parts: a scan reads the first one to its end, whatever may follow it.
  induction parts with
  | nil => rw [List.flatMap_nil, List.flatMap_nil, pieces?]
  | cons part parts ih =>
    obtain ⟨hpart, hparts⟩ := List.forall_mem_cons.mp hclosed
    have hrest := ih hparts hchain.tail
    rw [List.flatMap_cons, List.flatMap_cons]
    cases part with
    | literal text =>
      obtain ⟨hnext, hlast⟩ := isOpening_of_isChain hchain
      rw [written, pieces?_escape_append hnext hlast, hrest]
      rfl
    | slot content =>
      rw [written, pieces?_write hpart, hrest]
      rfl

theorem replace_pieces (part : Part) :
    part.pieces.flatMap (·.replace fun _ => ['?']) = part.shown := by
  cases part with
  | literal text =>
    rw [pieces, List.flatMap_map]
    exact List.flatMap_singleton' text.toList
  | slot content => rfl

theorem property?_pieces (part : Part) :
    part.pieces.filterMap Piece.property? = part.named?.toList := by
  cases part with
  | literal text =>
    rw [pieces, List.filterMap_map]
    exact List.filterMap_eq_nil_iff.mpr fun c _ => rfl
  | slot content => simp [pieces, Piece.property?, named?, property, trim]

/-- The template of what a scan finds of parts. -/
theorem ofPieces_pieces (parts : List Part) :
    Template.ofPieces (parts.flatMap pieces) =
      ⟨.ofList (parts.flatMap shown), parts.filterMap named?⟩ := by
  have hsql : (parts.flatMap pieces).flatMap (·.replace fun _ => ['?']) =
      parts.flatMap shown := by
    rw [List.flatMap_assoc]
    exact congrArg (parts.flatMap ·) (funext replace_pieces)
  have hnames : (parts.flatMap pieces).filterMap Piece.property? = parts.filterMap named? := by
    rw [List.filterMap_flatMap, List.filterMap_eq_flatMap_toList]
    exact congrArg (parts.flatMap ·) (funext property?_pieces)
  rw [Template.ofPieces, hsql, hnames]

theorem template_of_pieces {text : List Char} (h : pieces? text = some (parts.flatMap pieces)) :
    template (.ofList text) =
      .ok ⟨.ofList (parts.flatMap shown), parts.filterMap named?⟩ := by
  rw [template, Placeholder.pieces, String.toList_ofList, h, ← ofPieces_pieces]
  rfl

end Part

/-- Scanning is exact. Text written from parts, of which no two literals meet and no literal before
a placeholder ends in a backslash, is read as these parts: the template has each literal as it was
before it was escaped and a question mark for each placeholder, and what the placeholders name, in
their order. So an escaped text by itself is read as the text, without a placeholder. -/
theorem template_written :
    (∀ parts : List Part, (∀ part ∈ parts, part.IsClosed) → parts.IsChain Part.Precedes →
      template (.ofList (parts.flatMap Part.written)) =
        .ok ⟨.ofList (parts.flatMap Part.shown), parts.filterMap Part.named?⟩) ∧
    ∀ text : String, template (.ofList (escape text.toList)) = .ok ⟨text, []⟩ := by
  constructor
  · intro parts hclosed hchain
    exact Part.template_of_pieces (Part.pieces?_written hclosed hchain)
  · intro text
    -- A literal alone has no neighbour.
    have hscanned : pieces? ([Part.literal text].flatMap Part.written) =
        some ([Part.literal text].flatMap Part.pieces) :=
      Part.pieces?_written (List.forall_mem_singleton.mpr trivial) (.singleton _)
    have htemplate := Part.template_of_pieces hscanned
    simpa [Part.written, Part.shown, Part.named?, List.filterMap_cons] using htemplate

/-- Doubled backslashes, a hash sign before a placeholder, opening signs in a literal and in a
placeholder, and placeholders side by side. -/
theorem written_hash_and_backslashes :
    let parts : List Part :=
      [.literal "#\x7b \\\\#\x7b#", .slot " a#\x7b , x", .slot "b", .literal "\x7b\\"]
    (∀ part ∈ parts, part.IsClosed) ∧ parts.IsChain Part.Precedes ∧
      template (.ofList (parts.flatMap Part.written)) =
        .ok ⟨"#\x7b \\\\#\x7b#??\x7b\\", ["a#\x7b", "b"]⟩ := by
  intro parts
  have hclosed : ∀ part ∈ parts, part.IsClosed := by
    simp [parts, Part.IsClosed]
  have hchain : parts.IsChain Part.Precedes := by
    simp [parts, Part.Precedes]
  refine ⟨hclosed, hchain, ?_⟩
  rw [template_written.1 parts hclosed hchain]
  decide

end SqlMapper.Placeholder
