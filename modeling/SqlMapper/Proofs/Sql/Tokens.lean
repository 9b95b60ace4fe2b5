import Mathlib.Data.List.Infix
import SqlMapper.Proofs.Sql.Escaping
import SqlMapper.Proofs.Sql.Renaming

/-!
Placeholders with backslashes before them. A scan drops the last backslash and leaves the
placeholder alone, so what becomes of it is decided by the number of scans that go over the text.
-/

namespace SqlMapper

open Text

namespace Placeholder

def openingSign : List Char := ['#', '\x7b']

structure Token where
  slashes : Nat
  content : List Char
  deriving DecidableEq

namespace Token

def text (t : Token) : List Char :=
  List.replicate t.slashes '\\' ++ write t.content

theorem text_eq_concat (t : Token) :
    t.text = List.replicate t.slashes '\\' ++ (openingSign ++ t.content) ++ ['\x7d'] := by
  simp [text, write, openingSign]

/-- Whether the token ends where it is closed, and, if it is escaped, has no opening sign in it that
a scan would come to. -/
def isSound (t : Token) : Bool :=
  decide ('\x7d' ∉ t.content) && (t.slashes == 0 || !decide (openingSign <:+: t.content))

def pieces : Token → List Piece
  | ⟨0, content⟩ => [.slot content]
  | ⟨k + 1, content⟩ => (text ⟨k, content⟩).map .char

def shown : Token → List Char
  | ⟨0, _⟩ => ['?']
  | ⟨k + 1, content⟩ => text ⟨k, content⟩

def property? : Token → Option String
  | ⟨0, content⟩ => some (.ofList (property content))
  | ⟨_ + 1, _⟩ => none

/-- What a loop makes of a token in the pass `n`: a placeholder is renamed, an escaped one loses a
backslash. -/
def rescanned (vars : List String) (n : Nat) : Token → Token
  | ⟨0, content⟩ => ⟨0, Loop.renameContent vars n content⟩
  | ⟨k + 1, content⟩ => ⟨k, content⟩

theorem isSound_rescanned {t : Token} (vars : List String) (n : Nat) (h : t.isSound) :
    (t.rescanned vars n).isSound := by
  obtain ⟨_ | k, content⟩ := t
  · have hcontent : '\x7d' ∉ content := by simpa [isSound] using h
    have hrenamed := Loop.not_mem_renameContent vars n hcontent
    simp [rescanned, isSound, hrenamed]
  · obtain ⟨hcontent, hsign⟩ : '\x7d' ∉ content ∧ ¬ openingSign <:+: content := by
      simpa [isSound] using h
    simp [rescanned, isSound, hcontent, hsign]

end Token

inductive Bit where
  | char (c : Char)
  /-- An escaped opening sign, with nothing that would be its content. -/
  | sign
  | token (t : Token)
  deriving DecidableEq

inductive Place where
  | outside
  /-- In loops that have something between their passes. -/
  | inside
  /-- In a loop whose passes meet. -/
  | joined
  deriving DecidableEq

def Place.within (loop : Loop) (place : Place) : Place :=
  if loop.separator = "" ∨ place = .joined then .joined else .inside

def isFirm (c : Char) : Bool :=
  c != '#' && c != '\\'

theorem isFirm_of_isPlain {c : Char} (h : isPlain c) : isFirm c := by
  have hparts : c ≠ '#' ∧ c ≠ '\x7b' ∧ c ≠ '\x7d' ∧ c ≠ '\\' := by
    simpa [isPlain, and_assoc] using h
  simp [isFirm, hparts]

namespace Bit

def text : Bit → List Char
  | char c => [c]
  | sign => '\\' :: openingSign
  | token t => t.text

def pieces : Bit → List Piece
  | char c => [.char c]
  | sign => openingSign.map .char
  | token t => t.pieces

def shown : Bit → List Char
  | char c => [c]
  | sign => openingSign
  | token t => t.shown

def property? : Bit → Option String
  | token t => t.property?
  | _ => none

def token? : Bit → Option Token
  | token t => some t
  | _ => none

/-- Whether a bit can stand at a place. A loop would make an unclosed placeholder of an escaped
sign, and where passes meet, no character may join the next pass. -/
def fits : Place → Bit → Bool
  | _, token t => t.isSound
  | .outside, _ => true
  | .inside, char _ => true
  | .joined, char c => isFirm c
  | _, sign => false

def Precedes (a b : Bit) : Prop :=
  ¬ (a = char '#' ∧ b = char '\x7b') ∧ ¬ (a = char '\\' ∧ b.token?.isSome)

/-- What a loop makes of a bit in the pass `n`. -/
def rescanned (vars : List String) (n : Nat) : Bit → Bit
  | token t => token (t.rescanned vars n)
  | b => b

theorem text_ne_nil (b : Bit) : b.text ≠ [] := by
  rcases b with c | _ | t <;> simp [text, Token.text, write]

/-- Only a brace is written with a brace at its start. -/
theorem eq_brace_of_text {b : Bit} {tail rest : List Char} (h : b.text ++ tail = '\x7b' :: rest) :
    b = char '\x7b' := by
  rcases b with c | _ | ⟨_ | k, content⟩
  · rw [(List.cons.inj h).1]
  · exact nomatch h
  · exact nomatch h
  · exact nomatch h

/-- A hash sign at the start of a text is there for itself or opens a placeholder. -/
theorem cases_of_text_hash {b : Bit} {tail rest : List Char} (h : b.text ++ tail = '#' :: rest) :
    (b = char '#' ∧ tail = rest) ∨ b.token?.isSome := by
  rcases b with c | _ | t
  · obtain ⟨rfl, htail⟩ := List.cons.inj h
    exact .inl ⟨rfl, htail⟩
  · exact nomatch h
  · exact .inr rfl

/-- A plain character at the start of a text is there for itself. -/
theorem eq_char_of_text_start {b : Bit} {c : Char} (hc : isPlain c) {tail rest : List Char}
    (h : b.text ++ tail = c :: rest) : b = char c ∧ tail = rest := by
  rcases b with d | _ | ⟨_ | k, content⟩
  · obtain ⟨rfl, htail⟩ := List.cons.inj h
    exact ⟨rfl, htail⟩
  all_goals
    rw [← (List.cons.inj h).1] at hc
    exact nomatch hc

/-- A plain character at the end of a text is there for itself. -/
theorem eq_char_of_text_end {b : Bit} {c : Char} (hc : isPlain c) {start rest : List Char}
    (h : start ++ b.text = rest ++ [c]) : b = char c ∧ start = rest := by
  have hlast (last : Char) (init : List Char) (htext : b.text = init ++ [last]) :
      last = c ∧ start ++ init = rest := by
    rw [htext, ← List.append_assoc] at h
    exact ⟨List.singleton_inj.mp (List.append_inj_right' h rfl), List.append_inj_left' h rfl⟩
  rcases b with d | _ | t
  · obtain ⟨rfl, hstart⟩ := hlast d [] rfl
    exact ⟨rfl, by simpa using hstart⟩
  · obtain ⟨rfl, -⟩ := hlast '\x7b' ['\\', '#'] rfl
    exact nomatch hc
  · obtain ⟨rfl, -⟩ := hlast _ _ t.text_eq_concat
    exact nomatch hc

theorem token?_rescanned (vars : List String) (n : Nat) (b : Bit) :
    (b.rescanned vars n).token? = b.token?.map (Token.rescanned vars n) := by
  cases b <;> rfl

theorem eq_char_of_rescanned {vars : List String} {n : Nat} {b : Bit} {c : Char}
    (h : b.rescanned vars n = char c) : b = char c := by
  rcases b with d | _ | t
  · exact h
  · exact h
  · exact nomatch h

theorem precedes_rescanned {vars : List String} {n : Nat} {a b : Bit} (h : Precedes a b) :
    Precedes (a.rescanned vars n) (b.rescanned vars n) := by
  constructor
  · rintro ⟨ha, hb⟩
    exact h.1 ⟨eq_char_of_rescanned ha, eq_char_of_rescanned hb⟩
  · rintro ⟨ha, hb⟩
    rw [token?_rescanned, Option.isSome_map] at hb
    exact h.2 ⟨eq_char_of_rescanned ha, hb⟩

theorem not_fits_within_sign (place : Place) (loop : Loop) : ¬ sign.fits (place.within loop) := by
  unfold Place.within
  split <;> exact nofun

theorem fits_mono {place : Place} {loop : Loop} {b : Bit} (h : b.fits (place.within loop)) :
    b.fits place := by
  rcases b with c | _ | t
  · unfold Place.within at h
    cases place with
    | outside => rfl
    | inside => rfl
    | joined => simpa using h
  · exact absurd h (not_fits_within_sign place loop)
  · exact h

end Bit

structure Stand (place : Place) (bits : List Bit) : Prop where
  fits : ∀ b ∈ bits, b.fits place
  chain : bits.IsChain Bit.Precedes

def slashed : List Bit → List Bit
  | .token t :: bits => .token ⟨t.slashes + 1, t.content⟩ :: bits
  | bits => .char '\\' :: bits

/-- The bits of a text, or nothing when a placeholder without a backslash is not closed. An escaped
opening sign belongs to a token if it is closed before the next opening sign. -/
def bits? : List Char → Option (List Bit)
  | [] => some []
  | '\\' :: '#' :: '\x7b' :: rest =>
    match _h : content? rest with
    | none => (bits? rest).map (.sign :: ·)
    | some (content, r) =>
      if openingSign <:+: content then (bits? rest).map (.sign :: ·)
      else (bits? r).map (.token ⟨1, content⟩ :: ·)
  | '\\' :: rest => (bits? rest).map slashed
  | '#' :: '\x7b' :: rest =>
    match _h : content? rest with
    | none => none
    | some (content, r) => (bits? r).map (.token ⟨0, content⟩ :: ·)
  | c :: rest => (bits? rest).map (.char c :: ·)
termination_by cs => cs.length
decreasing_by
  · simp only [List.length_cons]
    omega
  · simp only [List.length_cons]
    omega
  · have := content?_length _h
    simp only [List.length_cons]
    omega
  · exact Nat.lt_succ_self _
  · have := content?_length _h
    simp only [List.length_cons]
    omega
  · exact Nat.lt_succ_self _

/-- The content of a placeholder goes up to the first closing brace. -/
theorem content?_eq_some {s content r : List Char} (h : content? s = some (content, r)) :
    s = content ++ '\x7d' :: r ∧ '\x7d' ∉ content := by
  induction s generalizing content r with
  | nil => exact nomatch h
  | cons c s ih =>
    rw [content?] at h
    split at h
    · rename_i hc
      obtain ⟨rfl, rfl⟩ := Prod.mk.inj (Option.some.inj h)
      exact ⟨congrArg (· :: s) hc, List.not_mem_nil⟩
    · rename_i hc
      obtain ⟨⟨content, r⟩, htail, heq⟩ := Option.map_eq_some_iff.mp h
      obtain ⟨rfl, rfl⟩ := Prod.mk.inj heq
      obtain ⟨rfl, hcontent⟩ := ih htail
      exact ⟨rfl, List.not_mem_cons_of_ne_of_not_mem (Ne.symm hc) hcontent⟩

section Reading

variable {bits : List Bit} {cs : List Char}

theorem stand_cons {b : Bit} (hb : b.fits .outside) (h : Stand .outside bits)
    (hprecedes : ∀ next ∈ bits.head?, b.Precedes next) : Stand .outside (b :: bits) :=
  ⟨List.forall_mem_cons.mpr ⟨hb, h.fits⟩, List.isChain_cons.mpr ⟨hprecedes, h.chain⟩⟩

theorem stand_sign (h : Stand .outside bits) : Stand .outside (.sign :: bits) :=
  stand_cons rfl h fun _ _ => ⟨fun hb => (nomatch hb.1), fun hb => (nomatch hb.1)⟩

theorem stand_token {t : Token} (ht : t.isSound) (h : Stand .outside bits) :
    Stand .outside (.token t :: bits) :=
  stand_cons ht h fun _ _ => ⟨fun hb => (nomatch hb.1), fun hb => (nomatch hb.1)⟩

/-- A backslash in front of anything but an opening sign. -/
theorem stand_slashed (h : Stand .outside bits)
    (hplain : ∀ r, bits.flatMap Bit.text ≠ openingSign ++ r) : Stand .outside (slashed bits) := by
  unfold slashed
  split
  · rename_i t others
    obtain ⟨ht, -⟩ := List.forall_mem_cons.mp h.fits
    refine stand_token ?_ ⟨(List.forall_mem_cons.mp h.fits).2, h.chain.tail⟩
    obtain ⟨_ | k, content⟩ := t
    · refine absurd ?_ (hplain (content ++ '\x7d' :: others.flatMap Bit.text))
      simp [Bit.text, Token.text, write, openingSign]
    · simpa [Bit.fits, Token.isSound] using ht
  · rename_i hnot
    refine stand_cons rfl h fun next hnext => ⟨by simp, fun hb => ?_⟩
    obtain ⟨others, rfl⟩ := List.head?_eq_some_iff.mp hnext
    cases next with
    | token t => exact hnot t others rfl
    | char c => simp [Bit.token?] at hb
    | sign => simp [Bit.token?] at hb

theorem text_slashed (bits : List Bit) :
    (slashed bits).flatMap Bit.text = '\\' :: bits.flatMap Bit.text := by
  unfold slashed
  split
  · simp [Bit.text, Token.text, List.replicate_succ]
  · rfl

/-- Reading a text as bits is faithful: they make up the text. -/
theorem bits?_eq_some (h : bits? cs = some bits) :
    Stand .outside bits ∧ bits.flatMap Bit.text = cs := by
  fun_induction bits? cs generalizing bits with
  | case1 =>
    obtain rfl := Option.some.inj h
    exact ⟨⟨nofun, .nil⟩, rfl⟩
  | case2 rest hcontent ih =>
    obtain ⟨others, hothers, rfl⟩ := Option.map_eq_some_iff.mp h
    obtain ⟨hstand, rfl⟩ := ih hothers
    exact ⟨stand_sign hstand, rfl⟩
  | case3 rest content r hcontent hsign ih =>
    obtain ⟨others, hothers, rfl⟩ := Option.map_eq_some_iff.mp h
    obtain ⟨hstand, rfl⟩ := ih hothers
    exact ⟨stand_sign hstand, rfl⟩
  | case4 rest content r hcontent hsign ih =>
    obtain ⟨others, hothers, rfl⟩ := Option.map_eq_some_iff.mp h
    obtain ⟨hstand, rfl⟩ := ih hothers
    obtain ⟨rfl, hclosed⟩ := content?_eq_some hcontent
    have hsound : Token.isSound ⟨1, content⟩ := by simp [Token.isSound, hclosed, hsign]
    exact ⟨stand_token hsound hstand, by simp [Bit.text, Token.text, write]⟩
  | case5 rest hplain ih =>
    obtain ⟨others, hothers, rfl⟩ := Option.map_eq_some_iff.mp h
    obtain ⟨hstand, rfl⟩ := ih hothers
    exact ⟨stand_slashed hstand hplain, text_slashed others⟩
  | case6 rest hcontent => exact absurd h.symm (Option.some_ne_none bits)
  | case7 rest content r hcontent ih =>
    obtain ⟨others, hothers, rfl⟩ := Option.map_eq_some_iff.mp h
    obtain ⟨hstand, rfl⟩ := ih hothers
    obtain ⟨rfl, hclosed⟩ := content?_eq_some hcontent
    have hsound : Token.isSound ⟨0, content⟩ := by simp [Token.isSound, hclosed]
    exact ⟨stand_token hsound hstand, by simp [Bit.text, Token.text, write]⟩
  | case8 c rest hescape hslash hopen ih =>
    obtain ⟨others, hothers, rfl⟩ := Option.map_eq_some_iff.mp h
    obtain ⟨hstand, rfl⟩ := ih hothers
    refine ⟨stand_cons rfl hstand fun next hnext => ⟨?_, fun hb => ?_⟩, rfl⟩
    · rintro ⟨hc, rfl⟩
      obtain ⟨more, rfl⟩ := List.head?_eq_some_iff.mp hnext
      exact hopen _ (by simpa using hc) rfl
    · exact hslash (by simpa using hb.1)

/-- Two backslashes before a placeholder, and none before the next one. -/
example : bits? "\\\\#\x7ba\x7d,#\x7bb\x7d".toList =
    some [.token ⟨2, ['a']⟩, .char ',', .token ⟨0, ['b']⟩] := by decide +kernel

end Reading

section Scan

variable {content rest : List Char}

/-- Backslashes before an escaped opening sign stand for themselves, but for the last one. -/
theorem pieces?_escaped (k : Nat) (rest : List Char) :
    pieces? (List.replicate (k + 1) '\\' ++ openingSign ++ rest) =
      (pieces? rest).map ((List.replicate k '\\' ++ openingSign).map .char ++ ·) := by
  induction k with
  | zero => exact pieces?_escaped_cons rest
  | succ k ih =>
    have hcons : List.replicate (k + 1 + 1) '\\' ++ openingSign ++ rest =
        '\\' :: (List.replicate (k + 1) '\\' ++ openingSign ++ rest) := rfl
    rw [hcons, pieces?_char_cons, ih, Option.map_map]
    · rfl
    · exact fun r heq => nomatch (List.cons.inj heq).1
    · exact fun r heq => nomatch (List.cons.inj (List.cons.inj heq).2).1

/-- A closed text without an opening sign stands for itself. -/
theorem pieces?_closed (h : ¬ openingSign <:+: content) (rest : List Char) :
    pieces? (content ++ '\x7d' :: rest) =
      (pieces? rest).map ((content ++ ['\x7d']).map .char ++ ·) := by
  induction content with
  | nil =>
    rw [List.nil_append, pieces?_char_cons (by simp) (by simp)]
    rfl
  | cons c content ih =>
    obtain ⟨hstart, htail⟩ := not_or.mp (List.infix_cons_iff.not.mp h)
    have hopens (cs : List Char) (d : Char) (r : List Char)
        (hsign : ¬ openingSign <+: d :: cs) : d :: (cs ++ '\x7d' :: rest) ≠ '#' :: '\x7b' :: r := by
      intro heq
      obtain ⟨rfl, hcs⟩ := List.cons.inj heq
      rcases cs with _ | ⟨e, cs⟩
      · exact nomatch (List.cons.inj hcs).1
      · obtain ⟨rfl, -⟩ := List.cons.inj hcs
        exact hsign ⟨cs, rfl⟩
    rw [List.cons_append, pieces?_char_cons, ih htail, Option.map_map]
    · rfl
    · exact fun r => hopens content c r hstart
    · intro r heq
      obtain ⟨-, hcs⟩ := List.cons.inj heq
      rcases content with _ | ⟨d, content⟩
      · exact nomatch (List.cons.inj hcs).1
      · exact hopens content d r (fun hsign => htail hsign.isInfix) hcs

end Scan

section Bits

variable {place : Place} {bits : List Bit}

/-- The first bit of a text begins as the text does. -/
theorem exists_first_bit {c : Char} {rest : List Char} (h : bits.flatMap Bit.text = c :: rest) :
    ∃ b others, bits = b :: others ∧ b.text ++ others.flatMap Bit.text = c :: rest := by
  cases bits with
  | nil => exact nomatch h
  | cons b others => exact ⟨b, others, rfl, h⟩

/-- No character opens a placeholder together with what follows it. -/
theorem not_opening_of_chain {c : Char} (h : (Bit.char c :: bits).IsChain Bit.Precedes)
    (r : List Char) : c :: bits.flatMap Bit.text ≠ '#' :: '\x7b' :: r := by
  intro heq
  obtain ⟨rfl, hbits⟩ := List.cons.inj heq
  obtain ⟨b, others, rfl, hfirst⟩ := exists_first_bit hbits
  exact (List.isChain_cons_cons.mp h).1.1 ⟨rfl, Bit.eq_brace_of_text hfirst⟩

/-- No character escapes what follows it. -/
theorem not_escape_of_chain {c : Char} (h : (Bit.char c :: bits).IsChain Bit.Precedes)
    (r : List Char) : c :: bits.flatMap Bit.text ≠ '\\' :: '#' :: '\x7b' :: r := by
  intro heq
  obtain ⟨rfl, hbits⟩ := List.cons.inj heq
  obtain ⟨b, others, rfl, hfirst⟩ := exists_first_bit hbits
  obtain ⟨hprecedes, hchain⟩ := List.isChain_cons_cons.mp h
  rcases Bit.cases_of_text_hash hfirst with ⟨rfl, hothers⟩ | htoken
  · exact not_opening_of_chain hchain r (congrArg ('#' :: ·) hothers)
  · exact hprecedes.2 ⟨rfl, htoken⟩

/-- A scan reads a text bit by bit. -/
theorem pieces?_bits (h : Stand place bits) :
    pieces? (bits.flatMap Bit.text) = some (bits.flatMap Bit.pieces) := by
  obtain ⟨hfits, hchain⟩ := h
  induction bits with
  | nil => rw [List.flatMap_nil, List.flatMap_nil, pieces?]
  | cons b bits ih =>
    obtain ⟨hb, hbits⟩ := List.forall_mem_cons.mp hfits
    have hrest := ih hbits hchain.tail
    rw [List.flatMap_cons, List.flatMap_cons]
    rcases b with c | _ | ⟨_ | k, content⟩
    · change pieces? (c :: bits.flatMap Bit.text) = _
      rw [pieces?_char_cons (not_opening_of_chain hchain) (not_escape_of_chain hchain), hrest]
      rfl
    · change pieces? (List.replicate 1 '\\' ++ openingSign ++ bits.flatMap Bit.text) = _
      rw [pieces?_escaped, hrest]
      rfl
    · have hcontent : '\x7d' ∉ content := by simpa [Bit.fits, Token.isSound] using hb
      change pieces? (write content ++ bits.flatMap Bit.text) = _
      rw [pieces?_write hcontent, hrest]
      rfl
    · obtain ⟨-, hsign⟩ : '\x7d' ∉ content ∧ ¬ openingSign <:+: content := by
        simpa [Bit.fits, Token.isSound] using hb
      have htext : (Bit.token ⟨k + 1, content⟩).text ++ bits.flatMap Bit.text =
          List.replicate (k + 1) '\\' ++ openingSign ++
            (content ++ '\x7d' :: bits.flatMap Bit.text) := by
        simp [Bit.text, Token.text, write, openingSign]
      rw [htext, pieces?_escaped, pieces?_closed hsign, hrest]
      simp [Bit.pieces, Token.pieces, Token.text, write, openingSign]

theorem flatMap_pieces_token (t : Token) (f : List Char → List Char) :
    t.pieces.flatMap (Piece.replace f) = match t with
      | ⟨0, content⟩ => f content
      | ⟨k + 1, content⟩ => Token.text ⟨k, content⟩ := by
  obtain ⟨_ | k, content⟩ := t
  · exact List.append_nil _
  · rw [Token.pieces, List.flatMap_map]
    exact List.flatMap_singleton' _

theorem shown_eq_flatMap (b : Bit) : b.shown = b.pieces.flatMap (Piece.replace fun _ => ['?']) := by
  rcases b with c | _ | t
  · rfl
  · rfl
  · rw [Bit.pieces, flatMap_pieces_token]
    obtain ⟨_ | k, content⟩ := t <;> rfl

theorem property?_eq_filterMap (b : Bit) :
    b.property?.toList = b.pieces.filterMap Piece.property? := by
  rcases b with c | _ | ⟨_ | k, content⟩
  · rfl
  · rfl
  · rfl
  · rw [Bit.pieces, Token.pieces, List.filterMap_map]
    exact (List.filterMap_eq_nil_iff.mpr fun c _ => rfl).symm

/-- The template of a text, bit by bit. -/
theorem template_bits {s : String} (hs : bits.flatMap Bit.text = s.toList) (h : Stand place bits) :
    template s =
      .ok ⟨.ofList (bits.flatMap Bit.shown), bits.filterMap Bit.property?⟩ := by
  have hsql : (bits.flatMap Bit.pieces).flatMap (Piece.replace fun _ => ['?']) =
      bits.flatMap Bit.shown := by
    rw [List.flatMap_assoc]
    exact congrArg (bits.flatMap ·) (funext fun b => (shown_eq_flatMap b).symm)
  have hproperties : (bits.flatMap Bit.pieces).filterMap Piece.property? =
      bits.filterMap Bit.property? := by
    rw [List.filterMap_flatMap, List.filterMap_eq_flatMap_toList]
    exact congrArg (bits.flatMap ·) (funext fun b => (property?_eq_filterMap b).symm)
  rw [template, pieces, ← hs, pieces?_bits h, ← hsql, ← hproperties]
  rfl

end Bits

end Placeholder
end SqlMapper
