import CatalogSearch.Sql.Condition
import CatalogSearch.Text.Identifier

/-!
# The grammar of conditions

A formula is a derivation of the grammar

    E ::= TRUE | atom | '(' E (' AND ' E)+ ')' | '(' E (' OR ' E)+ ')'

and `Formula.text` the text that it derives.  The six forms of atoms are told by what stands before
and after the column.  Main statement: `text_injective`, that no text has two derivations.

No text of the grammar goes on to another one (`text_prefixFree`): the first character tells which
rule made it, an identifier ends where a character comes that identifiers do not have, and the AND
of a BETWEEN stands within an atom, whose end is known before any connective is looked for.
-/

set_option autoImplicit false

namespace CatalogSearch.Sql

/-! ## Formulas -/

/-- The form of an atom; membership is among `more + 1` values. -/
inductive Form where
  | equal
  | contains
  | between
  | atLeast
  | atMost
  | oneOf (more : Nat)
  deriving DecidableEq, Repr

/-- The placeholders of `more + 1` values, with the closing parenthesis. -/
def membersText : Nat → String
  | 0 => "%s)"
  | more + 1 => "%s, " ++ membersText more

namespace Form

def before : Form → String
  | contains => "LOWER(CAST("
  | _ => ""

def after : Form → String
  | equal => " = %s"
  | contains => " AS TEXT)) LIKE %s ESCAPE '\\'"
  | between => " BETWEEN %s AND %s"
  | atLeast => " >= %s"
  | atMost => " <= %s"
  | oneOf more => " IN (" ++ membersText more

end Form

def IsReference (s : String) : Prop :=
  ∃ qualifier name, Text.isIdentifier qualifier = true ∧ Text.isIdentifier name = true ∧
    s = qualifier ++ "." ++ name

inductive Formula where
  | truth
  | atom (column : String) (form : Form)
  | group (connective : Connective) (first second : Formula) (rest : List Formula)

def Connective.between (connective : Connective) : String := " " ++ connective.text ++ " "

namespace Formula

mutual

def text : Formula → String
  | .truth => "TRUE"
  | .atom column form => form.before ++ column ++ form.after
  | .group connective first second rest =>
      "(" ++ first.text ++ connective.between ++ second.text ++ restText connective rest

def restText (connective : Connective) : List Formula → String
  | [] => ")"
  | f :: rest => connective.between ++ f.text ++ restText connective rest

end

mutual

def Proper : Formula → Prop
  | .truth => True
  | .atom column _ => IsReference column
  | .group _ first second rest => first.Proper ∧ second.Proper ∧ ProperAll rest

def ProperAll : List Formula → Prop
  | [] => True
  | f :: rest => f.Proper ∧ ProperAll rest

end

end Formula

/-! ## Where a text ends -/

/-- What is made of characters of one kind ends where another one comes. -/
theorem append_cons_inj {kind : Char → Bool} {a b : Char} (ha : kind a = false)
    (hb : kind b = false) : ∀ (cs ds : List Char) {x y : List Char},
    (∀ c ∈ cs, kind c = true) → (∀ d ∈ ds, kind d = true) → cs ++ a :: x = ds ++ b :: y →
      cs = ds ∧ a :: x = b :: y := by
  intro cs
  induction cs with
  | nil =>
      intro ds x y _ hds h
      rcases ds with _ | ⟨d, ds⟩
      · exact ⟨rfl, h⟩
      · obtain ⟨rfl, _⟩ := List.cons.inj h
        exact absurd (hds a (by simp)) (by simp [ha])
  | cons c cs ih =>
      intro ds x y hcs hds h
      rcases ds with _ | ⟨d, ds⟩
      · obtain ⟨rfl, _⟩ := List.cons.inj h
        exact absurd (hcs c (by simp)) (by simp [hb])
      · obtain ⟨rfl, htail⟩ := List.cons.inj h
        obtain ⟨rfl, hrest⟩ := ih ds (fun c hc => hcs c (List.mem_cons_of_mem _ hc))
          (fun d hd => hds d (List.mem_cons_of_mem _ hd)) htail
        exact ⟨rfl, hrest⟩

theorem isIdentifierChar_of_mem {s : String} (h : Text.isIdentifier s = true) :
    ∀ c ∈ s.toList, Text.isIdentifierChar c = true := by
  simp only [Text.isIdentifier] at h
  rcases hs : s.toList with _ | ⟨first, rest⟩
  · simp
  · rw [hs, Text.isIdentifierList, Bool.and_eq_true, List.all_eq_true] at h
    refine List.forall_mem_cons.mpr ⟨?_, h.2⟩
    rw [Text.isIdentifierChar, h.1, Bool.true_or]

theorem IsReference.append_inj {s t : String} (hs : IsReference s) (ht : IsReference t)
    {x y : List Char} (h : s.toList ++ ' ' :: x = t.toList ++ ' ' :: y) : s = t ∧ x = y := by
  obtain ⟨qualifier, name, hqualifier, hname, rfl⟩ := hs
  obtain ⟨qualifier', name', hqualifier', hname', rfl⟩ := ht
  simp only [String.toList_append, List.append_assoc] at h
  have hdot : Text.isIdentifierChar '.' = false := by decide
  have hblank : Text.isIdentifierChar ' ' = false := by decide
  obtain ⟨hq, hrest⟩ := append_cons_inj hdot hdot _ _ (isIdentifierChar_of_mem hqualifier)
    (isIdentifierChar_of_mem hqualifier') h
  obtain ⟨hn, hend⟩ := append_cons_inj hblank hblank _ _ (isIdentifierChar_of_mem hname)
    (isIdentifierChar_of_mem hname') (List.cons.inj hrest).2
  rw [String.toList_inj.mp hq, String.toList_inj.mp hn]
  exact ⟨rfl, (List.cons.inj hend).2⟩

theorem membersText_zero : (membersText 0).toList = ['%', 's', ')'] := rfl

theorem membersText_succ (more : Nat) :
    (membersText (more + 1)).toList = '%' :: 's' :: ',' :: ' ' :: (membersText more).toList := by
  rw [membersText, String.toList_append]
  rfl

theorem membersText_prefixFree : ∀ (m n : Nat) {x y : List Char},
    (membersText m).toList ++ x = (membersText n).toList ++ y → m = n ∧ x = y := by
  intro m
  induction m with
  | zero =>
      intro n x y h
      rcases n with _ | n
      · exact ⟨rfl, List.append_cancel_left h⟩
      · simp [membersText_zero, membersText_succ] at h
  | succ m ih =>
      intro n x y h
      rcases n with _ | n
      · simp [membersText_zero, membersText_succ] at h
      · simp only [membersText_succ, List.cons_append, List.cons.injEq, true_and] at h
        obtain ⟨rfl, hxy⟩ := ih n h
        exact ⟨rfl, hxy⟩

/-- What comes next after a column and a blank, which no two forms share. -/
def Form.mark : Form → Char
  | equal => '='
  | contains => 'A'
  | between => 'B'
  | atLeast => '>'
  | atMost => '<'
  | oneOf _ => 'I'

theorem Form.after_eq_cons (form : Form) : ∃ cs, form.after.toList = ' ' :: form.mark :: cs := by
  cases form with
  | oneOf more =>
      refine ⟨'N' :: ' ' :: '(' :: (membersText more).toList, ?_⟩
      rw [after, String.toList_append]
      rfl
  | _ => exact ⟨_, rfl⟩

theorem Form.eq_of_mark_eq {a b : Form} (h : a.mark = b.mark) :
    a = b ∨ ∃ m n, a = .oneOf m ∧ b = .oneOf n := by
  cases a with
  | oneOf m =>
      cases b with
      | oneOf n => exact Or.inr ⟨m, n, rfl, rfl⟩
      | _ => exact absurd h (by simp [mark])
  | _ => cases b <;> first | exact Or.inl rfl | exact absurd h (by simp [mark])

theorem Form.after_prefixFree {a b : Form} {x y : List Char}
    (h : a.after.toList ++ x = b.after.toList ++ y) : a = b ∧ x = y := by
  have hmark : a.mark = b.mark := by
    obtain ⟨cs, hcs⟩ := a.after_eq_cons
    obtain ⟨ds, hds⟩ := b.after_eq_cons
    rw [hcs, hds] at h
    exact (List.cons.inj (List.cons.inj h).2).1
  rcases Form.eq_of_mark_eq hmark with rfl | ⟨m, n, rfl, rfl⟩
  · exact ⟨rfl, List.append_cancel_left h⟩
  · simp only [after, String.toList_append, List.append_assoc, List.append_cancel_left_eq] at h
    obtain ⟨rfl, hxy⟩ := membersText_prefixFree m n h
    exact ⟨rfl, hxy⟩

theorem IsReference.exists_head {s : String} (h : IsReference s) :
    ∃ c, s.toList.head? = some c ∧ Text.isIdentifierStart c = true := by
  obtain ⟨qualifier, name, hqualifier, _, rfl⟩ := h
  simp only [Text.isIdentifier] at hqualifier
  rcases hs : qualifier.toList with _ | ⟨first, rest⟩
  · simp [hs, Text.isIdentifierList] at hqualifier
  · rw [hs, Text.isIdentifierList, Bool.and_eq_true] at hqualifier
    exact ⟨first, by simp [hs], hqualifier.1⟩

/-! ## Formulas are read in one way -/

namespace Formula

def StartsWith : Formula → Char → Prop
  | .truth, c => c = 'T'
  | .atom _ .contains, c => c = 'L'
  | .atom _ _, c => Text.isIdentifierStart c = true
  | .group _ _ _ _, c => c = '('

theorem exists_head (f : Formula) (proper : f.Proper) :
    ∃ c, f.text.toList.head? = some c ∧ f.StartsWith c := by
  cases f with
  | truth => exact ⟨_, rfl, rfl⟩
  | atom column form =>
      obtain ⟨c, hcolumn, hstart⟩ := IsReference.exists_head proper
      cases form with
      | contains => exact ⟨'L', by simp [text, Form.before], rfl⟩
      | _ => exact ⟨c, by simp [text, Form.before, hcolumn], hstart⟩
  | group connective first second rest => exact ⟨'(', by simp [text], rfl⟩

theorem exists_common_start {f g : Formula} (hf : f.Proper) (hg : g.Proper) {x y : List Char}
    (h : f.text.toList ++ x = g.text.toList ++ y) : ∃ c, f.StartsWith c ∧ g.StartsWith c := by
  obtain ⟨c, hc, hfc⟩ := f.exists_head hf
  obtain ⟨d, hd, hgd⟩ := g.exists_head hg
  have hhead := congrArg List.head? h
  rw [List.head?_append, List.head?_append, hc, hd] at hhead
  obtain rfl : c = d := by simpa using hhead
  exact ⟨c, hfc, hgd⟩

theorem StartsWith.of_atom {s : String} {a : Form} {c : Char} (h : (atom s a).StartsWith c) :
    c ≠ 'T' ∧ c ≠ '(' := by
  cases a with
  | contains =>
      obtain rfl : c = 'L' := h
      decide
  | _ =>
      have hstart : Text.isIdentifierStart c = true := h
      constructor <;> rintro rfl <;> exact absurd hstart (by decide)

theorem StartsWith.contains_iff {s : String} {a : Form} {c : Char}
    (h : (atom s a).StartsWith c) : a = .contains ↔ c = 'L' := by
  cases a with
  | contains => exact iff_of_true rfl h
  | _ =>
      have hstart : Text.isIdentifierStart c = true := h
      refine iff_of_false (by simp) ?_
      rintro rfl
      exact absurd hstart (by decide)

theorem before_eq_of_iff {a b : Form} (h : a = .contains ↔ b = .contains) :
    a.before = b.before := by
  by_cases ha : a = .contains
  · rw [ha, h.mp ha]
  · have plain : ∀ form : Form, form ≠ .contains → form.before = "" := by
      intro form hform
      cases form with
      | contains => exact absurd rfl hform
      | _ => rfl
    rw [plain a ha, plain b fun hb => ha (h.mpr hb)]

theorem atom_prefixFree {s t : String} (hs : IsReference s) (ht : IsReference t) {a b : Form}
    {x y : List Char} (h : (atom s a).text.toList ++ x = (atom t b).text.toList ++ y) :
    atom s a = atom t b ∧ x = y := by
  obtain ⟨c, hsc, htc⟩ := exists_common_start (f := atom s a) (g := atom t b) hs ht h
  have hbefore := before_eq_of_iff (hsc.contains_iff.trans htc.contains_iff.symm)
  obtain ⟨u, hu⟩ := a.after_eq_cons
  obtain ⟨v, hv⟩ := b.after_eq_cons
  simp only [text, hbefore, String.toList_append, List.append_assoc,
    List.append_cancel_left_eq, hu, hv, List.cons_append] at h
  obtain ⟨rfl, hrest⟩ := hs.append_inj ht h
  have hafter : a.after.toList ++ x = b.after.toList ++ y := by
    rw [hu, hv]
    exact congrArg (' ' :: ·) hrest
  obtain ⟨rfl, hxy⟩ := Form.after_prefixFree hafter
  exact ⟨rfl, hxy⟩

theorem between_inj {k k' : Connective} {x y : List Char}
    (h : k.between.toList ++ x = k'.between.toList ++ y) : k = k' ∧ x = y := by
  cases k <;> cases k' <;> simp_all [Connective.between, Connective.text]

mutual

/-- No text of the grammar is the start of another one. -/
theorem text_prefixFree (f g : Formula) (hf : f.Proper) (hg : g.Proper) {x y : List Char}
    (h : f.text.toList ++ x = g.text.toList ++ y) : f = g ∧ x = y := by
  -- The two start alike, so they are made by one rule, and each part ends where the other's does.
  obtain ⟨c, hfc, hgc⟩ := exists_common_start hf hg h
  match f, g with
  | .truth, .truth => exact ⟨rfl, List.append_cancel_left h⟩
  | .atom s a, .atom t b => exact atom_prefixFree hf hg h
  | .group k f₁ f₂ fs, .group k' g₁ g₂ gs =>
      obtain ⟨hf₁, hf₂, hfs⟩ := hf
      obtain ⟨hg₁, hg₂, hgs⟩ := hg
      simp only [text, String.toList_append, List.append_assoc, List.append_cancel_left_eq] at h
      obtain ⟨rfl, hconnective⟩ := text_prefixFree f₁ g₁ hf₁ hg₁ h
      obtain ⟨rfl, hsecond⟩ := between_inj hconnective
      obtain ⟨rfl, hrest⟩ := text_prefixFree f₂ g₂ hf₂ hg₂ hsecond
      obtain ⟨rfl, hxy⟩ := restText_prefixFree k fs gs hfs hgs hrest
      exact ⟨rfl, hxy⟩
  | .truth, .atom t b => exact absurd hfc hgc.of_atom.1
  | .truth, .group _ _ _ _ =>
      obtain rfl : c = 'T' := hfc
      exact absurd (show 'T' = '(' from hgc) (by decide)
  | .atom s a, .truth => exact absurd hgc hfc.of_atom.1
  | .atom s a, .group _ _ _ _ => exact absurd hgc hfc.of_atom.2
  | .group _ _ _ _, .truth =>
      obtain rfl : c = 'T' := hgc
      exact absurd (show 'T' = '(' from hfc) (by decide)
  | .group _ _ _ _, .atom t b => exact absurd hfc hgc.of_atom.2

theorem restText_prefixFree (k : Connective) (fs gs : List Formula) (hfs : ProperAll fs)
    (hgs : ProperAll gs) {x y : List Char}
    (h : (restText k fs).toList ++ x = (restText k gs).toList ++ y) : fs = gs ∧ x = y := by
  match fs, gs with
  | [], [] => exact ⟨rfl, List.append_cancel_left h⟩
  | f :: fs, g :: gs =>
      simp only [restText, String.toList_append, List.append_assoc,
        List.append_cancel_left_eq] at h
      obtain ⟨rfl, hrest⟩ := text_prefixFree f g hfs.1 hgs.1 h
      obtain ⟨rfl, hxy⟩ := restText_prefixFree k fs gs hfs.2 hgs.2 hrest
      exact ⟨rfl, hxy⟩
  | [], g :: gs => simp [restText, Connective.between] at h
  | f :: fs, [] => simp [restText, Connective.between] at h

end

theorem text_injective {f g : Formula} (hf : f.Proper) (hg : g.Proper) (h : f.text = g.text) :
    f = g := by
  have happend : f.text.toList ++ [] = g.text.toList ++ [] := by rw [h]
  exact (text_prefixFree f g hf hg happend).1

end Formula

end CatalogSearch.Sql
