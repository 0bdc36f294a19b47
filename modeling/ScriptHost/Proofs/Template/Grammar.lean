import Mathlib
import ScriptHost.Proofs.Template.Values
import ScriptHost.Proofs.Text.Trim
import ScriptHost.Template.Engine

/-! # The grammar of templates

A template is a row of placeholders, each with the text before it (`Slot`), and a last text. No
placeholder opens in the texts; each is closed on its own line, and no part between its dots is
empty. A source can be taken apart like that in one way at most (`Reads.unique`), and the reader
accepts it just if there is such a way. If there is none, some placeholder is `Broken` behind a part
of the source that can be read, and the reader complains of that one. What a placeholder stands for
is told by `Template.StandsFor`. -/

namespace ScriptHost

namespace Template

open Text (IsBlank)

/-! ## Parts -/

theorem dot_not_mem {cs : List Char} (h : IsBlank cs) : '.' ∉ cs := by
  intro hmem
  exact absurd (h '.' hmem) (by decide)

/-- What stands before a text without dots goes to its first part. -/
theorem splitOn_append_left {before : List Char} (h : '.' ∉ before) (cs : List Char) :
    ∃ first others, cs.splitOn '.' = first :: others ∧
      (before ++ cs).splitOn '.' = (before ++ first) :: others := by
  induction before with
  | nil =>
      cases hsplit : cs.splitOn '.' with
      | nil => exact absurd hsplit (List.splitOn_ne_nil _ _)
      | cons first others => exact ⟨first, others, rfl, hsplit⟩
  | cons c before ih =>
      have hc : (c == '.') = false := by
        refine beq_eq_false_iff_ne.mpr fun heq => h ?_
        rw [heq]
        exact List.mem_cons_self
      obtain ⟨first, others, hsplit, hboth⟩ := ih fun hmem => h (List.mem_cons_of_mem c hmem)
      refine ⟨first, others, hsplit, ?_⟩
      rw [List.cons_append, List.splitOn_cons_eq_if_modifyHead, hc, hboth]
      rfl

/-- What stands behind a text without dots goes to its last part. -/
theorem splitOn_append_right {after : List Char} (h : '.' ∉ after) (cs : List Char) :
    ∃ others last, cs.splitOn '.' = others ++ [last] ∧
      (cs ++ after).splitOn '.' = others ++ [last ++ after] := by
  induction cs with
  | nil => exact ⟨[], [], List.splitOn_nil _, List.splitOn_eq_singleton h⟩
  | cons c cs ih =>
      obtain ⟨others, last, hsplit, hboth⟩ := ih
      rw [List.cons_append, List.splitOn_cons_eq_if_modifyHead,
        List.splitOn_cons_eq_if_modifyHead, hsplit, hboth]
      split
      · exact ⟨[] :: others, last, rfl, rfl⟩
      · cases others with
        | nil => exact ⟨[], c :: last, rfl, rfl⟩
        | cons first others => exact ⟨(c :: first) :: others, last, rfl, rfl⟩

/-- **The parts of an expression are those of what trimming leaves of it.** -/
theorem parts_trimChars (e : List Char) : parts (Text.trimChars e) = parts e := by
  obtain ⟨before, after, hbefore, hafter, he⟩ := Text.exists_trimChars e
  obtain ⟨first, others, hsplit, hleft⟩ :=
    splitOn_append_left (dot_not_mem hbefore) (Text.trimChars e)
  obtain ⟨others', last, hsplit', hright⟩ :=
    splitOn_append_right (dot_not_mem hafter) (before ++ Text.trimChars e)
  have hfirst := Text.trimChars_append_left hbefore first
  have hlast := Text.trimChars_append_right hafter last
  calc parts (Text.trimChars e)
      = (first :: others).map Text.trimChars := by rw [parts, hsplit]
    _ = ((before ++ first) :: others).map Text.trimChars := by
        rw [List.map_cons, List.map_cons, hfirst]
    _ = (others' ++ [last]).map Text.trimChars := by rw [← hleft, hsplit']
    _ = (others' ++ [last ++ after]).map Text.trimChars := by
        rw [List.map_append, List.map_append, List.map_singleton, List.map_singleton, hlast]
    _ = parts e := by rw [← hright, ← he, parts]

/-! ## The grammar -/

/-- No placeholder opens in a text. -/
def IsBare (cs : List Char) : Prop := ¬ ['$', '\x7b'] <:+: cs

instance (cs : List Char) : Decidable (IsBare cs) :=
  inferInstanceAs (Decidable (¬ _))

/-- The names between the dots of an expression. -/
def names (e : List Char) : List String :=
  (parts e).map String.ofList

def fieldOf (e : List Char) : Segment :=
  .field ((names e).headD "") (names e).tail

/-- A placeholder, with the text before it. -/
structure Slot where
  before : List Char
  expression : List Char

namespace Slot

def chars (s : Slot) : List Char :=
  s.before ++ '$' :: '\x7b' :: (s.expression ++ ['\x7d'])

/-- A slot as it should be. -/
structure Proper (s : Slot) : Prop where
  bare : IsBare s.before
  /-- The expression ends with the first closing brace. -/
  closed : '\x7d' ∉ s.expression
  line : '\n' ∉ s.expression
  parts : ∀ part ∈ s.expression.splitOn '.', Text.trimChars part ≠ []

end Slot

/-- The source that some slots and a last text make. -/
def compose (slots : List Slot) (last : List Char) : List Char :=
  slots.flatMap Slot.chars ++ last

/-- A source is made of proper slots and a bare last text. -/
structure Reads (cs : List Char) (slots : List Slot) (last : List Char) : Prop where
  chars : cs = compose slots last
  proper : ∀ s ∈ slots, s.Proper
  bare : IsBare last

/-- What is wrong with a placeholder, by the source behind its opening: it is not closed on its
line, or it is, with an empty part between its dots. -/
inductive Broken : List Char → Fault → Prop
  | unterminated {body : List Char}
      (h : ∀ e rest, body = e ++ '\x7d' :: rest → '\n' ∈ e) : Broken body .unterminated
  | emptyPart {e part : List Char} (rest : List Char) (hclosed : '\x7d' ∉ e) (hline : '\n' ∉ e)
      (hpart : part ∈ e.splitOn '.') (hempty : Text.trimChars part = []) :
      Broken (e ++ '\x7d' :: rest) (.emptyPart (String.ofList (Text.trimChars e)))

/-- Behind a part of the source that can be read, which starts on a given line, a placeholder is
broken. -/
def Breaks (first : Nat) (cs : List Char) (fault : Fault) (line : Nat) : Prop :=
  ∃ read slots last body, cs = read ++ '$' :: '\x7b' :: body ∧ Reads read slots last ∧
    Broken body fault ∧ line = first + read.count '\n'

/-! ## Scanning -/

theorem isBare_cons_iff {c : Char} {cs : List Char} :
    IsBare (c :: cs) ↔ ¬ ['$', '\x7b'] <+: c :: cs ∧ IsBare cs := by
  unfold IsBare
  rw [List.infix_cons_iff, not_or]

/-- Up to the opening nothing opens, and scanning finds it. -/
theorem splitOpening_append {text : List Char} (h : IsBare text) (body : List Char) :
    splitOpening (text ++ '$' :: '\x7b' :: body) = (text, some body) := by
  induction text with
  | nil => rfl
  | cons c cs ih =>
      obtain ⟨hfront, hcs⟩ := isBare_cons_iff.mp h
      rw [List.cons_append, splitOpening, ih hcs]
      -- An opening at the front would be one in the text.
      intro rest hc hrest
      cases cs with
      | nil => cases hrest
      | cons d ds =>
          cases hrest
          exact hfront ⟨ds, by rw [hc]; rfl⟩

theorem splitOpening_bare {cs : List Char} (h : IsBare cs) : splitOpening cs = (cs, none) := by
  induction cs with
  | nil => rfl
  | cons c cs ih =>
      obtain ⟨hfront, hcs⟩ := isBare_cons_iff.mp h
      rw [splitOpening, ih hcs]
      intro rest hc hrest
      exact hfront ⟨rest, by rw [hc, hrest]; rfl⟩

/-- **Every text is bare, or bare up to an opening.** -/
theorem bare_or_opens (cs : List Char) :
    IsBare cs ∨ ∃ text body, IsBare text ∧ cs = text ++ '$' :: '\x7b' :: body := by
  have hnil : IsBare [] := by decide
  induction cs with
  | nil => exact .inl hnil
  | cons c cs ih =>
      by_cases hfront : ['$', '\x7b'] <+: c :: cs
      · obtain ⟨body, hbody⟩ := hfront
        exact .inr ⟨[], body, hnil, hbody.symm⟩
      · obtain hbare | ⟨text, body, hbare, rfl⟩ := ih
        · exact .inl (isBare_cons_iff.mpr ⟨hfront, hbare⟩)
        · have htext : ¬ ['$', '\x7b'] <+: c :: text :=
            fun hstart => hfront (hstart.trans (List.prefix_append (c :: text) _))
          exact .inr ⟨c :: text, body, isBare_cons_iff.mpr ⟨htext, hbare⟩, rfl⟩

theorem splitClosing_append {e : List Char} (hclosed : '\x7d' ∉ e) (hline : '\n' ∉ e)
    (rest : List Char) : splitClosing (e ++ '\x7d' :: rest) = some (e, rest) := by
  induction e with
  | nil => rfl
  | cons c e ih =>
      have hc : c ≠ '\x7d' := fun heq => hclosed (heq ▸ List.mem_cons_self)
      have hc' : c ≠ '\n' := fun heq => hline (heq ▸ List.mem_cons_self)
      rw [List.cons_append, splitClosing, if_neg hc, if_neg hc',
        ih (fun h => hclosed (List.mem_cons_of_mem c h)) fun h => hline (List.mem_cons_of_mem c h)]
      rfl

/-- **Either a placeholder is closed on its line, or scanning does not find its end.** -/
theorem closed_or_unterminated (body : List Char) :
    (∃ e rest, '\x7d' ∉ e ∧ '\n' ∉ e ∧ body = e ++ '\x7d' :: rest) ∨
      (∀ e rest, body = e ++ '\x7d' :: rest → '\n' ∈ e) := by
  -- The first character closes the placeholder, or ends its line, or leaves the rest to decide.
  induction body with
  | nil =>
      refine .inr fun e rest heq => ?_
      simp at heq
  | cons c cs ih =>
      by_cases hclose : c = '\x7d'
      · exact .inl ⟨[], cs, List.not_mem_nil, List.not_mem_nil, by rw [hclose]; rfl⟩
      by_cases hend : c = '\n'
      · refine .inr fun e rest heq => ?_
        cases e with
        | nil => exact absurd (List.cons.inj heq).1 hclose
        | cons d e =>
            rw [← (List.cons.inj heq).1, hend]
            exact List.mem_cons_self
      obtain ⟨e, rest, hclosed, hline, rfl⟩ | hopen := ih
      · refine .inl ⟨c :: e, rest, ?_, ?_, rfl⟩
        · exact fun h => (List.mem_cons.mp h).elim (fun heq => hclose heq.symm) hclosed
        · exact fun h => (List.mem_cons.mp h).elim (fun heq => hend heq.symm) hline
      · refine .inr fun e rest heq => ?_
        cases e with
        | nil => exact absurd (List.cons.inj heq).1 hclose
        | cons d e => exact List.mem_cons_of_mem d (hopen e rest (List.cons.inj heq).2)

theorem splitClosing_unterminated {body : List Char}
    (h : ∀ e rest, body = e ++ '\x7d' :: rest → '\n' ∈ e) : splitClosing body = none := by
  induction body with
  | nil => rfl
  | cons c cs ih =>
      have hclose : c ≠ '\x7d' := by
        rintro rfl
        cases h [] cs rfl
      rw [splitClosing, if_neg hclose]
      split
      · rfl
      · next hend =>
          rw [ih fun e rest heq => ?_]
          · rfl
          · have hmem := h (c :: e) rest (by rw [heq]; rfl)
            exact (List.mem_cons.mp hmem).resolve_left fun heq => hend heq.symm

/-! ## Placeholders -/

theorem any_isEmpty_parts (e : List Char) : (parts e).any List.isEmpty = true ↔
    ∃ part ∈ e.splitOn '.', Text.trimChars part = [] := by
  simp [parts]

theorem field?_eq (e : List Char) : field? e =
    if (parts e).any List.isEmpty then .error (.emptyPart (String.ofList (Text.trimChars e)))
    else .ok (fieldOf e) := by
  unfold field? fieldOf names
  dsimp only
  rw [parts_trimChars]
  cases hparts : parts e with
  | nil =>
      unfold parts at hparts
      exact absurd (List.map_eq_nil_iff.mp hparts) (List.splitOn_ne_nil _ _)
  | cons name path => rfl

theorem field?_proper {s : Slot} (h : s.Proper) :
    field? s.expression = .ok (fieldOf s.expression) := by
  rw [field?_eq, if_neg]
  rw [any_isEmpty_parts]
  rintro ⟨part, hpart, hempty⟩
  exact h.parts part hpart hempty

/-- What reading does where a placeholder opens. -/
theorem segmentsFrom_opening {cs text body : List Char}
    (h : splitOpening cs = (text, some body)) (line : Nat) : segmentsFrom line cs =
      match splitClosing body with
      | none => .error (.unterminated, line + text.count '\n')
      | some (e, rest) => do
        let field ← (field? e).mapError (·, line + text.count '\n')
        let segments ← segmentsFrom (line + text.count '\n') rest
        return literal text ++ field :: segments := by
  rw [segmentsFrom]
  split
  · next h' =>
      rw [h] at h'
      cases h'
  · next h' =>
      rw [h] at h'
      cases h'
      dsimp only
      split
      · next hclosing => rw [hclosing]
      · next e rest hclosing =>
          rw [hclosing]
          dsimp only
          cases field? e <;> rfl

theorem segmentsFrom_bare {cs : List Char} (h : IsBare cs) (line : Nat) :
    segmentsFrom line cs = .ok (literal cs) := by
  rw [segmentsFrom]
  split
  · next h' =>
      rw [splitOpening_bare h] at h'
      cases h'
      rfl
  · next h' =>
      rw [splitOpening_bare h] at h'
      cases h'

/-! ## Reading -/

/-- The segments of a slot. -/
def Slot.segments (s : Slot) : List Segment :=
  literal s.before ++ [fieldOf s.expression]

theorem Slot.Proper.count {s : Slot} (h : s.Proper) :
    s.chars.count '\n' = s.before.count '\n' := by
  unfold Slot.chars
  rw [List.count_append]
  simp [List.count_eq_zero.mpr h.line]

/-- **A proper slot is read as such**, and reading goes on behind it, on the line where it ends. -/
theorem segmentsFrom_slot {s : Slot} (h : s.Proper) (line : Nat) (rest : List Char) :
    segmentsFrom line (s.chars ++ rest) =
      (segmentsFrom (line + s.chars.count '\n') rest).map (s.segments ++ ·) := by
  have hchars : s.chars ++ rest =
      s.before ++ '$' :: '\x7b' :: (s.expression ++ '\x7d' :: rest) := by
    simp [Slot.chars]
  rw [hchars, segmentsFrom_opening (splitOpening_append h.bare _),
    splitClosing_append h.closed h.line, h.count]
  dsimp only
  rw [field?_proper h]
  have hsegments : ∀ segments, s.segments ++ segments =
      literal s.before ++ fieldOf s.expression :: segments :=
    fun segments => List.append_assoc _ [fieldOf s.expression] segments
  simp only [hsegments]
  rfl

/-- Reading goes on behind a row of proper slots. -/
theorem segmentsFrom_slots {slots : List Slot} (h : ∀ s ∈ slots, s.Proper) (line : Nat)
    (rest : List Char) : segmentsFrom line (compose slots rest) =
      (segmentsFrom (line + (slots.flatMap Slot.chars).count '\n') rest).map
        (slots.flatMap Slot.segments ++ ·) := by
  unfold compose
  -- By induction on the slots: each moves the line on by the ends of lines in it.
  induction slots generalizing line with
  | nil =>
      show segmentsFrom line rest = (segmentsFrom line rest).map fun segments => segments
      cases segmentsFrom line rest <;> rfl
  | cons s slots ih =>
      obtain ⟨hs, hslots⟩ := List.forall_mem_cons.mp h
      rw [List.flatMap_cons, List.append_assoc, segmentsFrom_slot hs, ih hslots,
        List.flatMap_cons, List.count_append, Nat.add_assoc]
      cases segmentsFrom _ rest with
      | error e => rfl
      | ok segments => exact congrArg Except.ok (List.append_assoc _ _ segments).symm

theorem segmentsFrom_reads {cs : List Char} {slots : List Slot} {last : List Char}
    (h : Reads cs slots last) (line : Nat) :
    segmentsFrom line cs = .ok (slots.flatMap Slot.segments ++ literal last) := by
  rw [h.chars, segmentsFrom_slots h.proper, segmentsFrom_bare h.bare]
  rfl

theorem segmentsFrom_broken {text body : List Char} {fault : Fault} (htext : IsBare text)
    (h : Broken body fault) (line : Nat) :
    segmentsFrom line (text ++ '$' :: '\x7b' :: body) = .error (fault, line + text.count '\n') := by
  rw [segmentsFrom_opening (splitOpening_append htext body)]
  cases h with
  | unterminated h => rw [splitClosing_unterminated h]
  | @emptyPart e part rest hclosed hline hpart hempty =>
      rw [splitClosing_append hclosed hline]
      dsimp only
      rw [field?_eq, if_pos ((any_isEmpty_parts e).mpr ⟨part, hpart, hempty⟩)]
      rfl

/-- **A broken placeholder is found on its line.** -/
theorem segmentsFrom_breaks {first : Nat} {cs : List Char} {fault : Fault} {line : Nat}
    (h : Breaks first cs fault line) : segmentsFrom first cs = .error (fault, line) := by
  obtain ⟨read, slots, last, body, rfl, ⟨rfl, hproper, hbare⟩, hbroken, rfl⟩ := h
  have hsource : compose slots last ++ '$' :: '\x7b' :: body =
      compose slots (last ++ '$' :: '\x7b' :: body) := by
    unfold compose
    rw [List.append_assoc]
  rw [hsource, segmentsFrom_slots hproper, segmentsFrom_broken hbare hbroken]
  unfold compose
  rw [List.count_append, Nat.add_assoc]
  rfl

/-! ## Every source -/

theorem Reads.cons {s : Slot} (hs : s.Proper) {rest : List Char} {slots : List Slot}
    {last : List Char} (h : Reads rest slots last) :
    Reads (s.chars ++ rest) (s :: slots) last where
  chars := by
    rw [h.chars, compose, compose, List.flatMap_cons, List.append_assoc]
  proper := List.forall_mem_cons.mpr ⟨hs, h.proper⟩
  bare := h.bare

/-- **A source can be read, or a placeholder is broken in it.** -/
theorem reads_or_breaks (first : Nat) (cs : List Char) :
    (∃ slots last, Reads cs slots last) ∨ ∃ fault line, Breaks first cs fault line := by
  -- By recursion on what follows the first placeholder, if there is one and it is not broken.
  obtain hbare | ⟨text, body, hbare, hcs⟩ := bare_or_opens cs
  · exact .inl ⟨[], cs, rfl, List.forall_mem_nil _, hbare⟩
  have htext : Reads text [] text := ⟨rfl, List.forall_mem_nil _, hbare⟩
  obtain ⟨e, rest, hclosed, hline, hbody⟩ | hopen := closed_or_unterminated body
  · by_cases hparts : ∀ part ∈ e.splitOn '.', Text.trimChars part ≠ []
    · have hs : Slot.Proper ⟨text, e⟩ := ⟨hbare, hclosed, hline, hparts⟩
      have hsource : cs = Slot.chars ⟨text, e⟩ ++ rest := by
        rw [hcs, hbody]
        simp [Slot.chars]
      have hshorter : rest.length < cs.length := by
        rw [hsource]
        simp [Slot.chars]
        omega
      obtain ⟨slots, last, hreads⟩ | ⟨fault, line, hbreaks⟩ := reads_or_breaks first rest
      · rw [hsource]
        exact .inl ⟨_, last, hreads.cons hs⟩
      · obtain ⟨read, slots, last, body, rfl, hreads, hbroken, -⟩ := hbreaks
        refine .inr ⟨fault, _, _, _, last, body, ?_, hreads.cons hs, hbroken, rfl⟩
        rw [hsource, List.append_assoc]
    · push Not at hparts
      obtain ⟨part, hpart, hempty⟩ := hparts
      rw [hcs, hbody]
      exact .inr ⟨_, _, text, [], text, _, rfl, htext,
        .emptyPart rest hclosed hline hpart hempty, rfl⟩
  · rw [hcs]
    exact .inr ⟨_, _, text, [], text, body, rfl, htext, .unterminated hopen, rfl⟩
  termination_by cs.length

/-- What scanning makes of a source that starts with a proper slot. -/
theorem Reads.uncons {cs : List Char} {s : Slot} {slots : List Slot} {last : List Char}
    (h : Reads cs (s :: slots) last) : ∃ rest,
      splitOpening cs = (s.before, some (s.expression ++ '\x7d' :: rest)) ∧
        splitClosing (s.expression ++ '\x7d' :: rest) = some (s.expression, rest) ∧
        Reads rest slots last := by
  obtain ⟨hs, hslots⟩ := List.forall_mem_cons.mp h.proper
  refine ⟨compose slots last, ?_, splitClosing_append hs.closed hs.line _, rfl, hslots, h.bare⟩
  rw [h.chars, ← splitOpening_append hs.bare]
  simp [compose, Slot.chars]

/-- **A source can be read in one way at most.** -/
theorem Reads.unique {cs : List Char} {slots slots' : List Slot} {last last' : List Char}
    (h : Reads cs slots last) (h' : Reads cs slots' last') : slots = slots' ∧ last = last' := by
  induction slots generalizing cs slots' with
  | nil =>
      have hcs : cs = last := h.chars
      cases slots' with
      | nil => exact ⟨rfl, hcs.symm.trans h'.chars⟩
      | cons s' slots' =>
          obtain ⟨rest, hopening, -, -⟩ := h'.uncons
          rw [hcs, splitOpening_bare h.bare] at hopening
          cases hopening
  | cons s slots ih =>
      obtain ⟨rest, hopening, hclosing, hrest⟩ := h.uncons
      cases slots' with
      | nil =>
          have hcs : cs = last' := h'.chars
          rw [hcs, splitOpening_bare h'.bare] at hopening
          cases hopening
      | cons s' slots' =>
          obtain ⟨rest', hopening', hclosing', hrest'⟩ := h'.uncons
          obtain ⟨hbefore, hbody⟩ := Prod.mk.inj (hopening.symm.trans hopening')
          rw [Option.some.inj hbody, hclosing'] at hclosing
          obtain ⟨hexpression, rfl⟩ := Prod.mk.inj (Option.some.inj hclosing)
          obtain ⟨rfl, hlast⟩ := ih hrest hrest'
          refine ⟨?_, hlast⟩
          cases s
          cases s'
          cases hbefore
          cases hexpression
          rfl

/-! ## Rendering -/

theorem render_literal (lookup : String → Option Data) (cs : List Char) :
    String.join ((literal cs).map (Segment.render lookup)) = String.ofList cs := by
  unfold literal
  split
  · next h =>
      rw [List.isEmpty_iff.mp h]
      rfl
  · exact String.empty_append

end Template

/-! ## Values that look like placeholders and like JSON -/

namespace Sample

def tricky : Bindings :=
  .ofList [("a", .data (.list [.null, .text "$\x7bb\x7d"])),
    ("r", .data (.record [("j", .null),
      ("k", .list [.text "\"\n\x01", .real ⟨0xC002000000000000⟩, .int 7,
        .record [("n", .bool true)]])]))]

end Sample

namespace Template

open Sample

end Template

end ScriptHost
