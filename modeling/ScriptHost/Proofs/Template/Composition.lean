import ScriptHost.Proofs.Template.Grammar

/-! # Templates put together

A source may be put behind another that can be read. Unless the opening of a placeholder falls on
the seam (`SplitsOpening`), nothing new opens there (`isBare_append_iff`), and the second source is
read on as it is by itself (`segmentsFrom_append`): its first text joins the last text of the first
source, and its lines are counted on from there. -/

namespace ScriptHost

namespace Template

/-! ## The seam -/

/-- The opening of a placeholder falls on the seam of two texts: its dollar sign ends the one, its
brace begins the other. -/
def SplitsOpening (a b : List Char) : Prop :=
  a.getLast? = some '$' ∧ b.head? = some '\x7b'

instance (a b : List Char) : Decidable (SplitsOpening a b) :=
  inferInstanceAs (Decidable (_ ∧ _))

theorem splitsOpening_singleton_iff {c : Char} {b : List Char} :
    SplitsOpening [c] b ↔ ['$', '\x7b'] <+: c :: b := by
  unfold SplitsOpening
  cases b with
  | nil => simp
  | cons d ds => simp [eq_comm]

/-- Of the text in front only the end matters. -/
theorem splitsOpening_append_left {b : List Char} (hb : b ≠ []) (a c : List Char) :
    SplitsOpening (a ++ b) c ↔ SplitsOpening b c := by
  unfold SplitsOpening
  rw [List.getLast?_append_of_ne_nil a hb]

theorem SplitsOpening.append_right {a b : List Char} (h : SplitsOpening a b) (c : List Char) :
    SplitsOpening a (b ++ c) := by
  obtain ⟨hend, hfront⟩ := h
  refine ⟨hend, ?_⟩
  rw [List.head?_append, hfront]
  rfl

theorem isBare_nil : IsBare [] := by decide

/-- **Texts put together are bare if they are so themselves and nothing opens on the seam.** -/
theorem isBare_append_iff {a b : List Char} :
    IsBare (a ++ b) ↔ IsBare a ∧ IsBare b ∧ ¬ SplitsOpening a b := by
  induction a with
  | nil => simp [isBare_nil, SplitsOpening]
  | cons c cs ih =>
      rw [List.cons_append, isBare_cons_iff, isBare_cons_iff]
      cases cs with
      | nil =>
          -- Only here does the pair in front reach over the seam.
          have hshort : ¬ ['$', '\x7b'] <+: [c] := fun h => by simpa using h.length_le
          have hnil := isBare_nil
          rw [List.nil_append, splitsOpening_singleton_iff]
          tauto
      | cons d ds =>
          have hfront : ['$', '\x7b'] <+: c :: (d :: ds ++ b) ↔ ['$', '\x7b'] <+: c :: d :: ds := by
            simp
          have hseam := splitsOpening_append_left (List.cons_ne_nil d ds) [c] b
          rw [ih, hfront, ← hseam]
          tauto

/-! ## Reading on -/

theorem Breaks.later {first line : Nat} {cs : List Char} {fault : Fault}
    (h : Breaks first cs fault line) (n : Nat) : Breaks (first + n) cs fault (line + n) := by
  obtain ⟨read, slots, last, body, hcs, hreads, hbroken, rfl⟩ := h
  exact ⟨read, slots, last, body, hcs, hreads, hbroken, by omega⟩

/-- The line on which a source starts shows only where it is at fault. -/
theorem segmentsFrom_later (first n : Nat) (cs : List Char) : segmentsFrom (first + n) cs =
    (segmentsFrom first cs).mapError fun (fault, line) => (fault, line + n) := by
  obtain ⟨slots, last, hreads⟩ | ⟨fault, line, hbreaks⟩ := reads_or_breaks first cs
  · rw [segmentsFrom_reads hreads, segmentsFrom_reads hreads]
    rfl
  · rw [segmentsFrom_breaks hbreaks, segmentsFrom_breaks (hbreaks.later n)]
    rfl

/-- What is read behind the opening of a placeholder on some line. -/
def segmentsBehind (line : Nat) (body : List Char) : Except (Fault × Nat) (List Segment) :=
  match splitClosing body with
  | none => .error (.unterminated, line)
  | some (e, rest) => do
    let field ← (field? e).mapError (·, line)
    let segments ← segmentsFrom line rest
    return field :: segments

/-- A text up to an opening matters for the text that is read and for the lines. -/
theorem segmentsFrom_text_opening {text : List Char} (h : IsBare text) (line : Nat)
    (body : List Char) : segmentsFrom line (text ++ '$' :: '\x7b' :: body) =
      (segmentsBehind (line + text.count '\n') body).map (literal text ++ ·) := by
  rw [segmentsFrom_opening (splitOpening_append h body)]
  unfold segmentsBehind
  cases splitClosing body with
  | none => rfl
  | some closed =>
      dsimp only
      cases field? closed.1 with
      | error fault => rfl
      | ok field =>
          show (segmentsFrom _ closed.2 >>= _) = Except.map _ (segmentsFrom _ closed.2 >>= _)
          cases segmentsFrom (line + text.count '\n') closed.2 <;> rfl

/-- **A text in front of a source joins the text that the source begins with**, and moves its lines
on. -/
theorem segmentsFrom_text_append {text : List Char} (htext : IsBare text) {source : List Char}
    (hseam : ¬ SplitsOpening text source) (line : Nat) :
    ∃ (lead : List Char) (next : Except (Fault × Nat) (List Segment)),
      segmentsFrom (line + text.count '\n') source = next.map (literal lead ++ ·) ∧
      segmentsFrom line (text ++ source) = next.map (literal (text ++ lead) ++ ·) := by
  obtain hbare | ⟨lead, body, hlead, rfl⟩ := bare_or_opens source
  · have hboth : IsBare (text ++ source) := isBare_append_iff.mpr ⟨htext, hbare, hseam⟩
    refine ⟨source, .ok [], ?_, ?_⟩
    · rw [segmentsFrom_bare hbare, Except.map, List.append_nil]
    · rw [segmentsFrom_bare hboth, Except.map, List.append_nil]
  · have hboth : IsBare (text ++ lead) :=
      isBare_append_iff.mpr ⟨htext, hlead, fun hsplit => hseam (hsplit.append_right _)⟩
    refine ⟨lead, segmentsBehind (line + (text ++ lead).count '\n') body, ?_, ?_⟩
    · rw [segmentsFrom_text_opening hlead, List.count_append, Nat.add_assoc]
    · rw [← List.append_assoc, segmentsFrom_text_opening hboth]

/-- **Behind a source that can be read, another is read on**: their texts join at the seam, and
lines are counted on. -/
theorem segmentsFrom_append {a b : List Char} {slots : List Slot} {last : List Char}
    (h : Reads a slots last) (hseam : ¬ SplitsOpening a b) (line : Nat) :
    ∃ (lead : List Char) (next : Except (Fault × Nat) (List Segment)),
      segmentsFrom (line + a.count '\n') b = next.map (literal lead ++ ·) ∧
      segmentsFrom line (a ++ b) =
        next.map (slots.flatMap Slot.segments ++ literal (last ++ lead) ++ ·) := by
  obtain ⟨rfl, hproper, hbare⟩ := h
  have hlast : ¬ SplitsOpening last b := by
    intro hsplit
    have hne : last ≠ [] := by
      rintro rfl
      cases hsplit.1
    exact hseam ((splitsOpening_append_left hne _ b).mpr hsplit)
  obtain ⟨lead, next, halone, hjoined⟩ :=
    segmentsFrom_text_append hbare hlast (line + (slots.flatMap Slot.chars).count '\n')
  have hline : line + (compose slots last).count '\n' =
      line + (slots.flatMap Slot.chars).count '\n' + last.count '\n' := by
    rw [compose, List.count_append, Nat.add_assoc]
  have hsource : compose slots last ++ b = compose slots (last ++ b) :=
    List.append_assoc _ _ _
  refine ⟨lead, next, by rw [hline, halone], ?_⟩
  rw [hsource, segmentsFrom_slots hproper, hjoined]
  cases next with
  | error fault => rfl
  | ok segments => exact congrArg Except.ok (List.append_assoc _ _ segments).symm

/-! ## Rendering on -/

theorem render_append (lookup : String → Option Data) (before after : List Segment) :
    render ⟨before ++ after⟩ lookup = render ⟨before⟩ lookup ++ render ⟨after⟩ lookup := by
  unfold render
  rw [List.map_append, String.join_append]

/-- Where two texts meet, they show as one. -/
theorem render_literal_append (lookup : String → Option Data) (cs ds : List Char) :
    render ⟨literal (cs ++ ds)⟩ lookup =
      render ⟨literal cs⟩ lookup ++ render ⟨literal ds⟩ lookup := by
  unfold render
  rw [render_literal, render_literal, render_literal, String.ofList_append]

/-- What can be read is made of slots and a last text. -/
theorem reads_of_parse {source : String} {t : Template} (h : parse source = .ok t) :
    ∃ slots last, Reads source.toList slots last ∧
      t = ⟨slots.flatMap Slot.segments ++ literal last⟩ := by
  unfold parse at h
  obtain ⟨slots, last, hreads⟩ | ⟨fault, line, hbreaks⟩ := reads_or_breaks 1 source.toList
  · rw [segmentsFrom_reads hreads] at h
    cases h
    exact ⟨slots, last, hreads, rfl⟩
  · rw [segmentsFrom_breaks hbreaks] at h
    cases h

/-- **Sources can be put together** unless the opening of a placeholder falls on the seam. If both
can be read, so can the whole, and it renders as the one and then the other. If only the first can,
the whole has the fault of the second, as many lines further down as the first has ends of lines. -/
theorem parse_append {a b : String} (hseam : ¬ SplitsOpening a.toList b.toList) {s : Template}
    (ha : parse a = .ok s) :
    (∀ t, parse b = .ok t → ∃ whole, parse (a ++ b) = .ok whole ∧
      ∀ lookup, whole.render lookup = s.render lookup ++ t.render lookup) ∧
    ∀ fault line, parse b = .error (fault, line) →
      parse (a ++ b) = .error (fault, line + a.toList.count '\n') := by
  obtain ⟨slots, last, hreads, rfl⟩ := reads_of_parse ha
  obtain ⟨lead, next, halone, hjoined⟩ := segmentsFrom_append hreads hseam 1
  have hwhole : parse (a ++ b) =
      (next.map (slots.flatMap Slot.segments ++ literal (last ++ lead) ++ ·)).map Template.mk := by
    unfold parse
    rw [String.toList_append, hjoined]
  -- By itself `b` starts on the first line.
  have hb : (parse b).mapError (fun (fault, line) => (fault, line + a.toList.count '\n')) =
      (next.map (literal lead ++ ·)).map Template.mk := by
    rw [← halone, segmentsFrom_later]
    unfold parse
    cases segmentsFrom 1 b.toList <;> rfl
  refine ⟨fun t ht => ?_, fun fault line hfault => ?_⟩
  · rw [ht] at hb
    cases next with
    | error e => cases hb
    | ok others =>
        cases hb
        refine ⟨_, hwhole, fun lookup => ?_⟩
        simp only [render_append, render_literal_append, String.append_assoc]
  · rw [hfault] at hb
    cases next with
    | error e =>
        cases hb
        exact hwhole
    | ok others => cases hb

/-- Dollar signs on both sides of the seam open nothing, and a broken placeholder is found two lines
further down. -/
theorem parse_append_dollars :
    let a := "$\n$\x7ba.1\x7d\n$"
    let b := "$ $\x7ba.1\x7d"
    let c := "\n$\x7b.\x7d"
    ¬ SplitsOpening a.toList b.toList ∧ ¬ SplitsOpening a.toList c.toList ∧
      (∃ whole, parse (a ++ b) = .ok whole ∧
        whole.render Sample.tricky.data? = "$\n$\x7bb\x7d\n$$ $\x7bb\x7d") ∧
      parse c = .error (.emptyPart ".", 2) ∧ parse (a ++ c) = .error (.emptyPart ".", 4) := by
  intro a b c
  have hab : ¬ SplitsOpening a.toList b.toList := by decide
  have hac : ¬ SplitsOpening a.toList c.toList := by decide
  have ha : parse a = .ok ⟨[.text "$\n", .field "a" ["1"], .text "\n$"]⟩ := by cbv
  have hb : parse b = .ok ⟨[.text "$ ", .field "a" ["1"]]⟩ := by cbv
  have hc : parse c = .error (.emptyPart ".", 2) := by cbv
  have hlines : a.toList.count '\n' = 2 := by decide
  obtain ⟨whole, hwhole, hrender⟩ := (parse_append hab ha).1 _ hb
  have hfault := (parse_append hac ha).2 _ _ hc
  rw [hlines] at hfault
  refine ⟨hab, hac, ⟨whole, hwhole, ?_⟩, hc, hfault⟩
  rw [hrender]
  decide +kernel

/-- Two texts, and the opening of a placeholder that is never closed. -/
example : parse "$" = .ok ⟨[.text "$"]⟩ ∧ parse "\x7b" = .ok ⟨[.text "\x7b"]⟩ ∧
    parse ("$" ++ "\x7b") = .error (.unterminated, 1) := by
  cbv

end Template

end ScriptHost
