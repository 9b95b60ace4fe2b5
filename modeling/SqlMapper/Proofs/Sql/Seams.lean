import SqlMapper.Proofs.Sql.Tokens

/-!
Texts put together, trimmed and scanned by loops. As long as no text ends in a character that joins
what comes after it, the tokens of the whole are those of its parts, in their order.
-/

namespace SqlMapper

open Text

namespace Placeholder

def Bears (place : Place) (cs : List Char) (tokens : List Token) : Prop :=
  ∃ bits, Stand place bits ∧ bits.flatMap Bit.text = cs ∧ bits.filterMap Bit.token? = tokens

namespace Bears

variable {place : Place} {as bs cs : List Char} {tokens tokens' : List Token}

theorem nil (place : Place) : Bears place [] [] := ⟨[], ⟨nofun, .nil⟩, rfl, rfl⟩

theorem of_char {c : Char} (h : (Bit.char c).fits place) : Bears place [c] [] :=
  ⟨[.char c], ⟨List.forall_mem_singleton.mpr h, .singleton _⟩, rfl, rfl⟩

theorem of_bits? {s : String} {bits : List Bit} (h : bits? s.toList = some bits)
    (hfits : ∀ b ∈ bits, b.fits place) : Bears place s.toList (bits.filterMap Bit.token?) := by
  obtain ⟨hstand, htext⟩ := bits?_eq_some h
  exact ⟨bits, ⟨hfits, hstand.chain⟩, htext, rfl⟩

theorem of_within {loop : Loop} (h : Bears (place.within loop) cs tokens) :
    Bears place cs tokens := by
  obtain ⟨bits, ⟨hfits, hchain⟩, htext, htokens⟩ := h
  exact ⟨bits, ⟨fun b hb => Bit.fits_mono (hfits b hb), hchain⟩, htext, htokens⟩

theorem eq_nil_of_nil (h : Bears place [] tokens) : tokens = [] := by
  obtain ⟨bits, -, htext, rfl⟩ := h
  cases bits with
  | nil => rfl
  | cons b bits => exact absurd (List.append_eq_nil_iff.mp htext).1 b.text_ne_nil

/-- Texts can be put together if the first does not end in a character that joins what comes after
it. -/
theorem append_of_firm (ha : Bears place as tokens) (hb : Bears place bs tokens')
    (hlast : ∀ c ∈ as.getLast?, isFirm c) : Bears place (as ++ bs) (tokens ++ tokens') := by
  obtain ⟨bits, ⟨hfits, hchain⟩, rfl, rfl⟩ := ha
  obtain ⟨bits', ⟨hfits', hchain'⟩, rfl, rfl⟩ := hb
  refine ⟨bits ++ bits', ⟨List.forall_mem_append.mpr ⟨hfits, hfits'⟩, ?_⟩, List.flatMap_append,
    List.filterMap_append⟩
  refine List.isChain_append.mpr ⟨hchain, hchain', fun a ha b _ => ?_⟩
  have hfirm : ∀ c, a = .char c → isFirm c := by
    rintro c rfl
    obtain ⟨init, rfl⟩ := List.getLast?_eq_some_iff.mp ha
    refine hlast c ?_
    rw [List.flatMap_append]
    exact List.getLast?_concat
  constructor
  · rintro ⟨rfl, -⟩
    exact nomatch hfirm '#' rfl
  · rintro ⟨rfl, -⟩
    exact nomatch hfirm '\\' rfl

/-- A text without tokens can be put behind any other unless it starts with a brace. -/
theorem append_bare (ha : Bears place as tokens) (hb : Bears place bs [])
    (hhead : '\x7b' ∉ bs.head?) : Bears place (as ++ bs) tokens := by
  obtain ⟨bits, ⟨hfits, hchain⟩, rfl, rfl⟩ := ha
  obtain ⟨bits', ⟨hfits', hchain'⟩, rfl, hbare⟩ := hb
  refine ⟨bits ++ bits', ⟨List.forall_mem_append.mpr ⟨hfits, hfits'⟩, ?_⟩, List.flatMap_append, ?_⟩
  · refine List.isChain_append.mpr ⟨hchain, hchain', fun a _ b hb => ?_⟩
    obtain ⟨others, rfl⟩ := List.head?_eq_some_iff.mp hb
    constructor
    · rintro ⟨-, rfl⟩
      exact hhead rfl
    · rintro ⟨-, htoken⟩
      rw [List.filterMap_eq_nil_iff.mp hbare b List.mem_cons_self] at htoken
      exact nomatch htoken
  · rw [List.filterMap_append, hbare, List.append_nil]

theorem of_plain (h : ∀ c ∈ cs, isPlain c) : Bears place cs [] := by
  induction cs with
  | nil => exact nil place
  | cons c cs ih =>
    obtain ⟨hc, hcs⟩ := List.forall_mem_cons.mp h
    have hfirm : isFirm c := isFirm_of_isPlain hc
    have hchar : Bears place [c] [] := of_char (by cases place <;> first | rfl | exact hfirm)
    exact hchar.append_of_firm (ih hcs) (by simpa using hfirm)

theorem append_blank (ha : Bears place as tokens) (hb : Bears place bs tokens') :
    Bears place (as ++ ' ' :: bs) (tokens ++ tokens') := by
  have hblank : Bears place [' '] [] := of_plain (List.forall_mem_singleton.mpr rfl)
  have hspaced : Bears place (as ++ [' ']) tokens := ha.append_bare hblank (by simp)
  rw [List.append_cons]
  exact hspaced.append_of_firm hb (by simp [isFirm])

/-- Cutting plain characters off cuts no token. -/
theorem cuttable (place : Place) (tokens : List Token) : Cuttable (Bears place · tokens) where
  start {as bs} ha h := by
    induction as with
    | nil => exact h
    | cons c as ih =>
      obtain ⟨hc, has⟩ := List.forall_mem_cons.mp ha
      obtain ⟨bits, ⟨hfits, hchain⟩, htext, rfl⟩ := h
      obtain ⟨b, bits, rfl, hfirst⟩ := exists_first_bit htext
      obtain ⟨rfl, hrest⟩ := Bit.eq_char_of_text_start hc hfirst
      exact ih has ⟨bits, ⟨(List.forall_mem_cons.mp hfits).2, hchain.tail⟩, hrest, rfl⟩
  ending {as bs} hb h := by
    induction bs using List.reverseRecOn with
    | nil => simpa using h
    | append_singleton bs c ih =>
      obtain ⟨hbs, hc⟩ := List.forall_mem_append.mp hb
      obtain ⟨bits, ⟨hfits, hchain⟩, htext, htokens⟩ := h
      rw [← List.append_assoc] at htext
      rcases List.eq_nil_or_concat bits with rfl | ⟨bits, b, rfl⟩
      · exact absurd htext.symm (List.append_ne_nil_of_right_ne_nil _ (List.cons_ne_nil _ _))
      · rw [List.concat_eq_append] at htext hfits hchain htokens
        rw [List.flatMap_append, List.flatMap_singleton] at htext
        obtain ⟨rfl, hrest⟩ :=
          Bit.eq_char_of_text_end (hc c (List.mem_singleton_self c)) htext
        refine ih hbs ⟨bits, ⟨(List.forall_mem_append.mp hfits).1, hchain.left_of_append⟩, hrest, ?_⟩
        simpa [Bit.token?, List.filterMap_cons] using htokens

theorem eq_nil_of_blank {s : String} (hs : isBlankText s) (h : Bears place s.toList tokens) :
    tokens = [] := by
  rw [← List.append_nil s.toList] at h
  exact eq_nil_of_nil ((cuttable place tokens).start
    (fun c hc => isPlain_of_isBlank (List.all_eq_true.mp hs c hc)) h)

/-- Where passes meet, a text ends so that anything can follow it. -/
theorem isFirm_of_joined (h : Bears .joined cs tokens) : ∀ c ∈ cs.getLast?, isFirm c := by
  intro c hc
  obtain ⟨bits, ⟨hfits, -⟩, rfl, -⟩ := h
  rcases List.eq_nil_or_concat bits with rfl | ⟨bits, b, rfl⟩
  · simp at hc
  · rw [List.concat_eq_append] at hfits hc
    have hb : b.fits .joined := hfits b (by simp)
    rw [List.flatMap_append, List.flatMap_singleton] at hc
    rcases b with d | _ | t
    · obtain rfl : d = c := by simpa [Bit.text] using hc
      exact hb
    · exact absurd hb Bool.false_ne_true
    · rw [Bit.text, Token.text_eq_concat, ← List.append_assoc, List.getLast?_concat] at hc
      obtain rfl := Option.some.inj hc
      rfl

end Bears

/-- A text without tokens that can stand between any two texts at the place, without joining either
of them. -/
structure Separates (place : Place) (s : String) : Prop where
  bears : Bears place s.toList []
  head : '\x7b' ∉ s.toList.head?
  last : ∀ c ∈ s.toList.getLast?, isFirm c

namespace Bears

variable {place : Place} {as bs : List Char} {tokens tokens' : List Token} {separator : String}

/-- If the separator is empty, the texts have to meet as they are. -/
theorem append_separated (hseparator : Separates place separator)
    (hempty : separator = "" → place = .joined) (ha : Bears place as tokens)
    (hb : Bears place bs tokens') :
    Bears place (as ++ separator.toList ++ bs) (tokens ++ tokens') := by
  have hjoined : Bears place (as ++ separator.toList) tokens :=
    ha.append_bare hseparator.bears hseparator.head
  refine hjoined.append_of_firm hb fun c hc => ?_
  by_cases hseparated : separator = ""
  · obtain rfl := hempty hseparated
    exact isFirm_of_joined hjoined c hc
  · have hne : separator.toList ≠ [] := fun h => hseparated (String.toList_eq_nil_iff.mp h)
    rw [List.getLast?_append_of_ne_nil _ hne] at hc
    exact hseparator.last c hc

/-- Texts put together with a separator between them. -/
theorem intercalate_append (hseparator : Separates place separator)
    (hempty : separator = "" → place = .joined) {ts us : List String}
    (ht : Bears place (separator.intercalate ts).toList tokens)
    (hu : Bears place (separator.intercalate us).toList tokens') :
    Bears place (separator.intercalate (ts ++ us)).toList (tokens ++ tokens') := by
  by_cases hts : ts = []
  · subst hts
    obtain rfl : tokens = [] := eq_nil_of_nil (by simpa using ht)
    exact hu
  by_cases hus : us = []
  · subst hus
    obtain rfl : tokens' = [] := eq_nil_of_nil (by simpa using hu)
    simpa using ht
  · rw [String.intercalate_append_of_ne_nil hts hus, String.toList_append, String.toList_append]
    exact append_separated hseparator hempty ht hu

end Bears

theorem Separates.of_plain {place : Place} {s : String} (h : isPlainText s) :
    Separates place s where
  bears := Bears.of_plain (List.all_eq_true.mp h)
  head hmem := nomatch List.all_eq_true.mp h _ (List.mem_of_mem_head? hmem)
  last c hc := isFirm_of_isPlain (List.all_eq_true.mp h c (List.mem_of_getLast? hc))

end Placeholder

namespace Loop

open Placeholder

variable {loop : Loop} {place : Place} {n : Nat}

/-- What a loop writes of a bit. -/
theorem text_rescanned {b : Bit} (h : b.fits (place.within loop)) :
    (b.rescanned loop.vars n).text =
      b.pieces.flatMap (Piece.replace fun content => write (renameContent loop.vars n content)) := by
  rcases b with c | _ | t
  · rfl
  · exact absurd h (Bit.not_fits_within_sign place loop)
  · rw [Bit.pieces, flatMap_pieces_token]
    obtain ⟨_ | k, content⟩ := t <;> rfl

theorem stand_rescanned {bits : List Bit} (h : Stand (place.within loop) bits) (n : Nat) :
    Stand (place.within loop) (bits.map (Bit.rescanned loop.vars n)) := by
  constructor
  · refine List.forall_mem_map.mpr fun b hb => ?_
    have hfits := h.fits b hb
    rcases b with c | _ | t
    · exact hfits
    · exact hfits
    · exact Token.isSound_rescanned loop.vars n hfits
  · exact (List.isChain_map _).mpr (h.chain.imp fun _ _ => Bit.precedes_rescanned)

/-- A pass renames the placeholders in its text and takes a backslash from the escaped ones. -/
theorem bears_rename {tokens : List Token} {body text : String}
    (h : Bears (place.within loop) body.toList tokens) (hrename : loop.rename n body = .ok text) :
    Bears (place.within loop) text.toList (tokens.map (Token.rescanned loop.vars n)) := by
  obtain ⟨bits, hstand, hbody, rfl⟩ := h
  refine ⟨bits.map (Bit.rescanned loop.vars n), stand_rescanned hstand n, ?_, ?_⟩
  · rw [rename, pieces, ← hbody, pieces?_bits hstand] at hrename
    obtain rfl := Except.ok.inj hrename
    rw [String.toList_ofList, List.flatMap_map, List.flatMap_assoc]
    exact List.flatMap_congr fun b hb => text_rescanned (hstand.fits b hb)
  · rw [List.filterMap_map, List.map_filterMap]
    exact congrArg (bits.filterMap ·) (funext (Bit.token?_rescanned loop.vars n))

end Loop

namespace Trim

open Placeholder

variable {t : Trim} {place : Place} {tokens : List Token}

structure Quiet (place : Place) (t : Trim) : Prop where
  opening : ∀ s ∈ t.opening, Bears place s.toList []
  closing : ∀ s ∈ t.closing, Bears place s.toList []
  cuts : t.cutsPlain

theorem quiet_of_isPlain (ht : t.isPlain) : t.Quiet place where
  opening s hs := Bears.of_plain (plain_of_mem_texts ht (by simp [texts, Option.mem_def.mp hs]))
  closing s hs := Bears.of_plain (plain_of_mem_texts ht (by simp [texts, Option.mem_def.mp hs]))
  cuts := cutsPlain_of_isPlain ht

/-- Trimming leaves the tokens of a part as they are. -/
theorem bears_apply (ht : t.Quiet place) {part : String} (h : Bears place part.toList tokens) :
    Bears place (t.apply part).toList tokens := by
  refine apply_of_cuttable (Bears.cuttable place tokens) ht.cuts (fun cs hcs => ?_)
    (fun cs hcs => ?_) h
  · unfold addOpening
    split
    · rename_i s hs
      exact (ht.opening s hs).append_blank hcs
    · exact hcs
  · unfold addClosing
    split
    · rename_i s hs
      simpa using hcs.append_blank (ht.closing s hs)
    · exact hcs

end Trim

end SqlMapper
