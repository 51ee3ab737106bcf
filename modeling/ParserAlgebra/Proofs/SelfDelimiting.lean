import Mathlib.Data.List.Forall2
import ParserAlgebra.Text.Quoted

/-!
# Texts that show where they end

A written form is read off the beginning of a text if nothing else could stand there: two of them
that begin the same text are the same, and what is left behind them is the same. Quoted symbols and
texts are read off in this way, and so are sequences of parts with a separator before each of them
or between them, as long as what follows does not begin with the separator.
-/

namespace ParserAlgebra

section Separated

variable {α : Type} {write : α → List Char} {ends : List Char → Prop} {same : α → α → Prop}
  {a b : α} {as bs : List α} {separator s t : List Char}

/-- If `a` and `b` begin the same text, each with something behind it that may stand there, then
they are the same, and so is what is behind them. -/
def ReadOff (write : α → List Char) (ends : List Char → Prop) (same : α → α → Prop) (a b : α) :
    Prop :=
  ∀ s t, ends s → ends t → write a ++ s = write b ++ t → same a b ∧ s = t

/-- Parts, each behind a separator. -/
def separatedBy (separator : List Char) (write : α → List Char) (as : List α) : List Char :=
  as.flatMap fun a => separator ++ write a

@[simp] theorem separatedBy_nil : separatedBy separator write [] = [] := rfl

@[simp] theorem separatedBy_cons :
    separatedBy separator write (a :: as) =
      separator ++ (write a ++ separatedBy separator write as) := by
  simp [separatedBy]

@[simp] theorem separatedBy_append :
    separatedBy separator write (as ++ bs) =
      separatedBy separator write as ++ separatedBy separator write bs := by
  simp [separatedBy]

/-- Where parts behind separators may stand if what follows them may. -/
theorem ends_separatedBy (hends : ∀ s, ends (separator ++ s)) (hs : ends s) :
    ends (separatedBy separator write as ++ s) := by
  cases as with
  | nil => exact hs
  | cons a as =>
      rw [separatedBy_cons, List.append_assoc]
      exact hends _

theorem forall₂_of_separatedBy (hends : ∀ s, ends (separator ++ s))
    (h : ∀ a ∈ as, ∀ b ∈ bs, ReadOff write ends same a b) (hs : ends s) (ht : ends t)
    (hs' : ¬ separator <+: s) (ht' : ¬ separator <+: t)
    (heq : separatedBy separator write as ++ s = separatedBy separator write bs ++ t) :
    List.Forall₂ same as bs ∧ s = t := by
  induction as generalizing bs with
  | nil =>
      cases bs with
      | nil => exact ⟨.nil, heq⟩
      | cons b bs =>
          rw [separatedBy_cons, List.append_assoc, separatedBy_nil, List.nil_append] at heq
          exact absurd ⟨_, heq.symm⟩ hs'
  | cons a as ih =>
      cases bs with
      | nil =>
          rw [separatedBy_cons, List.append_assoc, separatedBy_nil, List.nil_append] at heq
          exact absurd ⟨_, heq⟩ ht'
      | cons b bs =>
          simp only [separatedBy_cons, List.append_assoc] at heq
          obtain ⟨hsame, hrest⟩ := h a List.mem_cons_self b List.mem_cons_self _ _
            (ends_separatedBy hends hs) (ends_separatedBy hends ht)
            (List.append_cancel_left heq)
          obtain ⟨hall, hst⟩ := ih (fun a ha b hb =>
            h a (List.mem_cons_of_mem _ ha) b (List.mem_cons_of_mem _ hb)) hrest
          exact ⟨.cons hsame hall, hst⟩

theorem intercalate_map_cons :
    separator.intercalate ((a :: as).map write) = write a ++ separatedBy separator write as := by
  induction as generalizing a with
  | nil => simp
  | cons b as ih =>
      rw [separatedBy_cons, ← ih]
      simp [List.intercalate_cons_cons]

/-- Parts with separators between them are read off one after another, as long as what follows them
does not begin with the separator. -/
theorem forall₂_of_intercalate (hends : ∀ s, ends (separator ++ s)) (has : as ≠ []) (hbs : bs ≠ [])
    (h : ∀ a ∈ as, ∀ b ∈ bs, ReadOff write ends same a b) (hs : ends s) (ht : ends t)
    (hs' : ¬ separator <+: s) (ht' : ¬ separator <+: t)
    (heq : separator.intercalate (as.map write) ++ s = separator.intercalate (bs.map write) ++ t) :
    List.Forall₂ same as bs ∧ s = t := by
  obtain ⟨a, as, rfl⟩ := List.exists_cons_of_ne_nil has
  obtain ⟨b, bs, rfl⟩ := List.exists_cons_of_ne_nil hbs
  rw [intercalate_map_cons, intercalate_map_cons, List.append_assoc, List.append_assoc] at heq
  obtain ⟨hfirst, hrest⟩ := h a List.mem_cons_self b List.mem_cons_self _ _
    (ends_separatedBy hends hs) (ends_separatedBy hends ht) heq
  obtain ⟨hall, hst⟩ := forall₂_of_separatedBy hends
    (fun a ha b hb => h a (List.mem_cons_of_mem _ ha) b (List.mem_cons_of_mem _ hb)) hs ht hs' ht'
    hrest
  exact ⟨.cons hfirst hall, hst⟩

end Separated

/-- Symbols each of which is read off its code, up to a closing symbol with which no code begins. -/
theorem eq_of_flatMap_append {code : Char → List Char} {close : Char}
    (hcode : ∀ c d s t, code c ++ s = code d ++ t → c = d ∧ s = t)
    (hclose : ∀ c s t, code c ++ s ≠ close :: t) {xs ys s t : List Char}
    (h : xs.flatMap code ++ close :: s = ys.flatMap code ++ close :: t) : xs = ys ∧ s = t := by
  induction xs generalizing ys with
  | nil =>
      cases ys with
      | nil => exact ⟨rfl, (List.cons.inj h).2⟩
      | cons y ys =>
          rw [List.flatMap_cons, List.append_assoc] at h
          exact absurd h.symm (hclose y _ _)
  | cons x xs ih =>
      cases ys with
      | nil =>
          rw [List.flatMap_cons, List.append_assoc] at h
          exact absurd h (hclose x _ _)
      | cons y ys =>
          rw [List.flatMap_cons, List.flatMap_cons, List.append_assoc, List.append_assoc] at h
          obtain ⟨rfl, hrest⟩ := hcode _ _ _ _ h
          obtain ⟨rfl, hst⟩ := ih hrest
          exact ⟨rfl, hst⟩

/-- Digits that a closing symbol ends, where no digit is that symbol. -/
theorem eq_of_append_cons_eq {xs ys s t : List Char} {close : Char} (hxs : close ∉ xs)
    (hys : close ∉ ys) (h : xs ++ close :: s = ys ++ close :: t) : xs = ys ∧ s = t := by
  rcases List.append_eq_append_iff.1 h with ⟨more, rfl, hmore⟩ | ⟨more, rfl, hmore⟩
  · cases more with
    | nil => simpa using hmore
    | cons x more =>
        obtain ⟨rfl, -⟩ := List.cons.inj hmore
        simp at hys
  · cases more with
    | nil => simpa [eq_comm] using hmore
    | cons x more =>
        obtain ⟨rfl, -⟩ := List.cons.inj hmore
        simp at hxs

namespace Text

theorem exists_digitChar_of_mem_toDigits {b n : Nat} (hb : 1 < b) {x : Char}
    (hx : x ∈ Nat.toDigits b n) : ∃ d < b, x = d.digitChar := by
  induction n using Nat.strongRecOn with
  | _ n ih =>
      rw [Nat.toDigits_eq_if hb] at hx
      split at hx
      · exact ⟨n, ‹_›, List.mem_singleton.1 hx⟩
      · rcases List.mem_append.1 hx with hx | hx
        · exact ih (n / b) (Nat.div_lt_self (by omega) hb) hx
        · exact ⟨n % b, Nat.mod_lt n (by omega), List.mem_singleton.1 hx⟩

theorem notMem_toDigits_brace (n : Nat) : '\x7d' ∉ Nat.toDigits 16 n := by
  have hdigit : ∀ d < 16, '\x7d' ≠ Nat.digitChar d := by decide
  intro hmem
  obtain ⟨d, hd, hbrace⟩ := exists_digitChar_of_mem_toDigits (by decide) hmem
  exact hdigit d hd hbrace

theorem eq_of_toDigits_eq {n m : Nat} (h : Nat.toDigits 16 n = Nat.toDigits 16 m) : n = m := by
  have hdigit : ∀ i < 16, ∀ j < 16, i.digitChar = j.digitChar → i = j := by decide
  induction n using Nat.strongRecOn generalizing m with
  | _ n ih =>
      rw [Nat.toDigits_eq_if (by decide), Nat.toDigits_eq_if (n := m) (by decide)] at h
      split at h
      · split at h
        · exact hdigit n ‹_› m ‹_› (List.cons.inj h).1
        · exact absurd (List.append_eq_singleton_iff.1 h.symm) (by simp)
      · split at h
        · exact absurd (List.append_eq_singleton_iff.1 h) (by simp)
        · obtain ⟨hfront, hlast⟩ := List.append_inj' h rfl
          have hdiv := ih (n / 16) (by omega) hfront
          have hmod := hdigit _ (n.mod_lt (by decide)) _ (m.mod_lt (by decide))
            (List.cons.inj hlast).1
          omega

/-- The letters of the short escapes, with the symbols they stand for. -/
def shortEscapes : List (Char × Char) :=
  [('t', '\t'), ('r', '\r'), ('n', '\n'), ('\'', '\''), ('"', '"'), ('\\', '\\')]

/-- The written forms of a symbol between single quotes. -/
inductive EscapedAs (c : Char) : List Char → Prop
  | short {letter : Char} (h : (letter, c) ∈ shortEscapes) : EscapedAs c ['\\', letter]
  | plain (h : c ≠ '\\') : EscapedAs c [c]
  | codePoint : EscapedAs c ('\\' :: 'u' :: '\x7b' :: (Nat.toDigits 16 c.toNat ++ ['\x7d']))

theorem toList_codePointEscape (c : Char) : (codePointEscape c).toList =
    '\\' :: 'u' :: '\x7b' :: (Nat.toDigits 16 c.toNat ++ ['\x7d']) := by
  simp [codePointEscape]

theorem escapedAs_escapeSymbol (c : Char) : EscapedAs c (escapeSymbol c).toList := by
  unfold escapeSymbol
  split
  · exact .short (by decide)
  · exact .short (by decide)
  · exact .short (by decide)
  · exact .short (by decide)
  · exact .short (by decide)
  · exact .short (by decide)
  · rename_i hbackslash
    split
    · have htext : c.toString.toList = [c] := String.toList_singleton c
      rw [htext]
      exact .plain hbackslash
    · rw [toList_codePointEscape]
      exact .codePoint

theorem EscapedAs.eq_of_append_eq {c d : Char} {xs ys s t : List Char} (hc : EscapedAs c xs)
    (hd : EscapedAs d ys) (h : xs ++ s = ys ++ t) : c = d ∧ s = t := by
  have hletter : ∀ e ∈ shortEscapes, ∀ e' ∈ shortEscapes, e.1 = e'.1 → e.2 = e'.2 := by decide
  have hu : ∀ e ∈ shortEscapes, e.1 ≠ 'u' := by decide
  cases hc <;> cases hd <;>
    simp only [List.cons_append, List.nil_append, List.append_assoc, List.cons.injEq, true_and] at h
  case short.short hc _ hd => exact ⟨hletter _ hc _ hd h.1, h.2⟩
  case short.plain hd => exact absurd h.1.symm hd
  case short.codePoint hc => exact absurd h.1 (hu _ hc)
  case plain.short hc _ _ => exact absurd h.1 hc
  case plain.plain => exact h
  case plain.codePoint hc => exact absurd h.1 hc
  case codePoint.short hd => exact absurd h.1.symm (hu _ hd)
  case codePoint.plain hd => exact absurd h.1.symm hd
  case codePoint.codePoint =>
    obtain ⟨hdigits, hst⟩ :=
      eq_of_append_cons_eq (notMem_toDigits_brace _) (notMem_toDigits_brace _) h
    exact ⟨Char.toNat_inj.1 (eq_of_toDigits_eq hdigits), hst⟩

/-- A quoted symbol is read off the text that it begins. -/
theorem eq_of_quoteSymbol_append {c d : Char} {s t : List Char}
    (h : (quoteSymbol c).toList ++ s = (quoteSymbol d).toList ++ t) : c = d ∧ s = t := by
  simp only [quoteSymbol, String.toList_append, String.reduceToList, List.cons_append,
    List.nil_append, List.append_assoc, List.cons.injEq, true_and] at h
  obtain ⟨rfl, hrest⟩ := (escapedAs_escapeSymbol c).eq_of_append_eq (escapedAs_escapeSymbol d) h
  exact ⟨rfl, (List.cons.inj hrest).2⟩

theorem escapedAs_escapeInText (c : Char) :
    c = '\x00' ∧ (escapeInText c).toList = ['\\', '0'] ∨ EscapedAs c (escapeInText c).toList := by
  unfold escapeInText
  split
  · exact .inl ⟨rfl, rfl⟩
  · exact .inr (.short (by decide))
  · exact .inr (.short (by decide))
  · exact .inr (.short (by decide))
  · exact .inr (.short (by decide))
  · exact .inr (.short (by decide))
  · rename_i hbackslash
    split
    · rw [toList_codePointEscape]
      exact .inr .codePoint
    · have htext : c.toString.toList = [c] := String.toList_singleton c
      rw [htext]
      exact .inr (.plain hbackslash)

theorem EscapedAs.ne_zero_append {c : Char} {xs s t : List Char} (hc : EscapedAs c xs) :
    xs ++ s ≠ '\\' :: '0' :: t := by
  have hzero : ∀ e ∈ shortEscapes, e.1 ≠ '0' := by decide
  intro h
  cases hc with
  | short hc => exact hzero _ hc (by simp_all)
  | plain hc => exact hc (by simp_all)
  | codePoint => simp at h

theorem eq_of_escapeInText_append {c d : Char} {s t : List Char}
    (h : (escapeInText c).toList ++ s = (escapeInText d).toList ++ t) : c = d ∧ s = t := by
  obtain ⟨rfl, hzero⟩ | hc := escapedAs_escapeInText c
  · rw [hzero] at h
    obtain ⟨rfl, hzero'⟩ | hd := escapedAs_escapeInText d
    · rw [hzero'] at h
      exact ⟨rfl, List.append_cancel_left h⟩
    · exact absurd h.symm hd.ne_zero_append
  · obtain ⟨rfl, hzero⟩ | hd := escapedAs_escapeInText d
    · rw [hzero] at h
      exact absurd h hc.ne_zero_append
    · exact hc.eq_of_append_eq hd h

/-- A quote within a text is escaped. -/
theorem escapeInText_append_ne_quote (c : Char) (s t : List Char) :
    (escapeInText c).toList ++ s ≠ '"' :: t := by
  intro h
  unfold escapeInText at h
  split at h
  case h_7 hquote _ =>
    split at h
    · simp [toList_codePointEscape] at h
    · have htext : c.toString.toList = [c] := String.toList_singleton c
      rw [htext] at h
      exact hquote (List.cons.inj h).1
  all_goals simp at h

/-- A quoted text is read off the text that it begins. -/
theorem eq_of_quote_append {text text' : String} {s t : List Char}
    (h : (quote text).toList ++ s = (quote text').toList ++ t) : text = text' ∧ s = t := by
  have hquote (text : String) (u : List Char) : (quote text).toList ++ u =
      '"' :: (text.toList.flatMap (fun c => (escapeInText c).toList) ++ '"' :: u) := by
    simp [quote, String.toList_join, List.flatMap_map]
  rw [hquote, hquote] at h
  obtain ⟨htext, hst⟩ := eq_of_flatMap_append (fun _ _ _ _ => eq_of_escapeInText_append)
    escapeInText_append_ne_quote (List.cons.inj h).2
  exact ⟨String.toList_inj.1 htext, hst⟩

end Text

end ParserAlgebra
