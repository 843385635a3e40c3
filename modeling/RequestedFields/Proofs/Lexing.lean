import Mathlib.Data.List.Basic
import RequestedFields.Query.Printing

/-!
# Tokens that are written are read again

Tokens written one after the other with a space between them (`Token.join`) are found again by the
lexer, all of them and nothing else.

Two things make this true of a single token.  Its first character is none that may stand between two
tokens, so nothing of it is passed over; and a name, which goes on as far as it can, does not go on
over a space.  Literals are left out: they would have to be looked into.

* `Token.isPlain` — punctuators and well-formed names.
* `Apart` — what may stand after a token.
* `WrittenAs`, `exists_writtenAs` — how a plain token begins, and that it is read from there.
* `Lexing.IsWhole`, `lex_join` — **the lexer undoes the writing of plain tokens**.
-/

set_option autoImplicit false

namespace RequestedFields.Query

/-! ## One token -/

/-- A punctuator, or a name that is well formed. -/
def Token.isPlain : Token → Bool
  | .name text => isName text.toList
  | .literal _ => false
  | _ => true

/-- The text ends here, or it goes on with a space. -/
def Apart (rest : List Char) : Prop := ∀ c ∈ rest.head?, c = ' '

/-- A plain token is written with the first character `c`, and it is read from there. -/
structure WrittenAs (t : Token) (c : Char) (body : List Char) : Prop where
  spelling : t.spelling.toList = c :: body
  /-- The first character belongs to a token. -/
  stays (p : Position) (rest : List Char) : skipIgnored false p (c :: rest) = (p, c :: rest)
  read (rest : List Char) (h : Apart rest) : Token.read c (body ++ rest) = some (t, body.length)

section

variable {c : Char}

theorem punctuator?_of_isNameStart (h : isNameStart c = true) : Token.punctuator? c = none := by
  rw [Token.punctuator?]
  repeat rw [if_neg (by rintro rfl; exact absurd h (by decide))]

theorem skipIgnored_of_isNameStart (h : isNameStart c = true) (p : Position) (rest : List Char) :
    skipIgnored false p (c :: rest) = (p, c :: rest) := by
  have hne {d : Char} (hd : isNameStart d = false) : c ≠ d := by
    rintro rfl
    exact absurd (h.symm.trans hd) (by decide)
  simp only [skipIgnored, hne (d := '\n') rfl, hne (d := '\r') rfl, hne (d := byteOrderMark) rfl,
    hne (d := '\t') rfl, hne (d := ' ') rfl, hne (d := ',') rfl, hne (d := '#') rfl,
    Bool.false_eq_true, or_self, if_false]

/-- A name ends before a space. -/
theorem takeWhile_isNamePart {body rest : List Char} (hbody : body.all isNamePart = true)
    (hrest : Apart rest) : (body ++ rest).takeWhile isNamePart = body := by
  rw [List.takeWhile_append_of_pos (List.all_eq_true.mp hbody)]
  cases rest with
  | nil => rw [List.takeWhile_nil, List.append_nil]
  | cons d more =>
    have hd : d = ' ' := hrest d rfl
    rw [hd, List.takeWhile_cons_of_neg (by decide), List.append_nil]

end

theorem writtenAs_name {text : String} {c : Char} {body : List Char}
    (htext : text.toList = c :: body) (hname : isName (c :: body) = true) :
    WrittenAs (.name text) c body := by
  obtain ⟨hstart, hbody⟩ := Bool.and_eq_true_iff.mp hname
  refine ⟨htext, skipIgnored_of_isNameStart hstart, fun rest hrest ↦ ?_⟩
  have hdot : c ≠ '.' := by rintro rfl; exact absurd hstart (by decide)
  have hquote : c ≠ '"' := by rintro rfl; exact absurd hstart (by decide)
  have hback : String.ofList (c :: body) = text := by rw [← htext, String.ofList_toList]
  simp only [Token.read, punctuator?_of_isNameStart hstart, if_neg hdot, if_neg hquote,
    if_pos hstart, takeWhile_isNamePart hbody hrest, hback]

theorem exists_writtenAs {t : Token} (ht : t.isPlain = true) : ∃ c body, WrittenAs t c body := by
  cases t with
  | name text =>
    change isName text.toList = true at ht
    cases htext : text.toList with
    | nil => rw [htext] at ht; cases ht
    | cons c body => exact ⟨c, body, writtenAs_name htext (htext ▸ ht)⟩
  | literal lexeme => cases ht
  | _ => exact ⟨_, _, rfl, fun _ _ ↦ rfl, fun _ _ ↦ rfl⟩

/-! ## Token after token -/

/-- The whole text was read, into these tokens. -/
structure Lexing.IsWhole (l : Lexing) (tokens : List Token) : Prop where
  tokens : l.tokens.map Prod.snd = tokens
  complete : l.complete = true

/-- A plain token, after what is passed over, is the first that is read, and the reading goes on
behind it. -/
theorem lexFrom_of_skipIgnored {p start : Position} {cs rest : List Char} {t : Token}
    (ht : t.isPlain = true) (hrest : Apart rest)
    (hskip : skipIgnored false p cs = skipIgnored false start (t.spelling.toList ++ rest))
    {tokens : List Token} (hmore : ∀ q, (lexFrom q rest).IsWhole tokens) :
    (lexFrom p cs).IsWhole (t :: tokens) := by
  obtain ⟨c, body, hw⟩ := exists_writtenAs ht
  rw [hw.spelling, List.cons_append, hw.stays] at hskip
  rw [lexFrom]
  split
  · rename_i hnil
    rw [hskip] at hnil
    cases hnil
  · rename_i hcons
    rw [hskip] at hcons
    cases hcons
    rw [hw.read rest hrest]
    dsimp only
    rw [List.drop_left]
    have hwhole := hmore (start.after (c :: (body ++ rest).take body.length))
    exact ⟨by rw [List.map_cons, hwhole.tokens], hwhole.complete⟩

/-- Tokens, each with a space before it. -/
def spaced (tokens : List Token) : List Char := tokens.flatMap fun t ↦ ' ' :: t.spelling.toList

theorem apart_spaced (tokens : List Token) : Apart (spaced tokens) := by
  cases tokens with
  | nil => exact fun c hc ↦ nomatch hc
  | cons t rest => exact fun c hc ↦ (Option.some.inj hc).symm

theorem lexFrom_spaced {tokens : List Token} (h : ∀ t ∈ tokens, t.isPlain = true) (p : Position) :
    (lexFrom p (spaced tokens)).IsWhole tokens := by
  induction tokens generalizing p with
  | nil =>
    rw [lexFrom]
    exact ⟨rfl, rfl⟩
  | cons t rest ih =>
    obtain ⟨ht, hrest⟩ := List.forall_mem_cons.mp h
    -- only the space before the token is passed over
    have hspace : skipIgnored false p (spaced (t :: rest))
        = skipIgnored false (p.right 1) (t.spelling.toList ++ spaced rest) := rfl
    exact lexFrom_of_skipIgnored ht (apart_spaced rest) hspace (ih hrest)

theorem Token.toList_join (t : Token) (rest : List Token) :
    (join (t :: rest)).toList = t.spelling.toList ++ spaced rest := by
  induction rest generalizing t with
  | nil => simp [join, spaced]
  | cons next rest ih =>
    have hjoin : join (t :: next :: rest) = t.spelling ++ " " ++ join (next :: rest) :=
      String.intercalate_cons_cons
    rw [hjoin, String.toList_append, String.toList_append, ih, List.append_assoc]
    rfl

/-- **The lexer undoes the writing of plain tokens.** -/
theorem lex_join {tokens : List Token} (h : ∀ t ∈ tokens, t.isPlain = true) :
    (lex (Token.join tokens)).IsWhole tokens := by
  rw [lex]
  cases tokens with
  | nil =>
    rw [show (Token.join []).toList = [] from rfl, lexFrom]
    exact ⟨rfl, rfl⟩
  | cons t rest =>
    obtain ⟨ht, hrest⟩ := List.forall_mem_cons.mp h
    rw [Token.toList_join]
    exact lexFrom_of_skipIgnored ht (apart_spaced rest) rfl (lexFrom_spaced hrest)

end RequestedFields.Query
