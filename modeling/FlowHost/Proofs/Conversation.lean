import FlowHost.Proofs.Trimming

/-!
# Conversations at the console

What an operator types is taken word by word. A trigger is the word `direct`, an identifier and a payload, with blanks
between and around them, and it is passed on as it was typed. A conversation asks for what its lines say, in their
order, up to the first line that ends it.

* `Console.parse_direct_iff`: **the lines that fire a trigger.**
* `Console.converse_eq_foldl`: a conversation is its lines up to the first that ends it, one after the other.
* `Console.advance_logged`: what one line asks for.
* `Console.converse_follows`: **what is asked in a conversation**, whoever is asked.
-/

namespace FlowHost.Console

variable {line : List Char} {identifier payload : String}

/-- **A line that fires a trigger**: blanks, the word `direct`, blanks, an identifier without a blank, blanks, a payload
that is a document and has no blank at its ends, and blanks. -/
structure IsDirect (line : List Char) (identifier payload : String) : Prop where
  parts : ∃ before gap gap' after, AreBlank before ∧ (AreBlank gap ∧ gap ≠ []) ∧ (AreBlank gap' ∧ gap' ≠ []) ∧
    AreBlank after ∧
    line = before ++ "direct".toList ++ gap ++ identifier.toList ++ gap' ++ payload.toList ++ after
  named : identifier.toList ≠ [] ∧ AreSolid identifier.toList
  trimmed : IsTrimmed payload.toList
  document : Json.isDocument payload = true

/-- What follows the first word of a line. -/
def afterWord (line : List Char) : List Char := ((splitBlank? (trimBlank line)).getD (trimBlank line, [])).2

/-- A line is told by its first word. -/
theorem parse_eq (line : List Char) : parse line =
    if firstWord line = [] then .ok none
    else if firstWord line = "info".toList then .ok (some .info)
    else if firstWord line = "exit".toList ∨ firstWord line = "quit".toList then .ok (some .exit)
    else if firstWord line = "direct".toList then parseDirect (afterWord line)
    else .error ("unknown command: " ++ String.ofList (firstWord line)) := by
  rw [← head_cut line]
  rfl

/-! ### Triggers -/

/-- The word for a trigger has no blank. -/
theorem areSolid_direct : AreSolid "direct".toList := by
  have hword : "direct".toList.all (fun c => isBlank c == false) = true := by decide +kernel
  exact fun c hc => beq_iff_eq.1 (List.all_eq_true.1 hword c hc)

/-- The empty text is no document. -/
theorem ne_nil_of_isDocument (h : Json.isDocument payload = true) : payload.toList ≠ [] := by
  intro hnil
  rw [String.toList_eq_nil_iff.1 hnil] at h
  revert h
  decide

/-- What follows the word for a trigger, in its parts. -/
theorem parseDirect_append {gap gap' : List Char} {b : Char} (hgap : AreBlank gap)
    (hnamed : identifier.toList ≠ [] ∧ AreSolid identifier.toList) (hb : isBlank b = true) (hgap' : AreBlank gap')
    (htrimmed : IsTrimmed payload.toList) (hdocument : Json.isDocument payload = true) :
    parseDirect (gap ++ (identifier.toList ++ b :: (gap' ++ payload.toList))) =
      .ok (some (.direct identifier payload)) := by
  have hfirst : ∀ c ∈ identifier.toList.head?, isBlank c = false :=
    fun c hc => hnamed.2 c (List.mem_of_mem_head? hc)
  have hboth : IsTrimmed (identifier.toList ++ ((b :: gap') ++ payload.toList)) :=
    isTrimmed_append hfirst htrimmed.last hnamed.1 (ne_nil_of_isDocument hdocument)
  have hrest : trimBlank (gap ++ (identifier.toList ++ b :: (gap' ++ payload.toList))) =
      identifier.toList ++ b :: (gap' ++ payload.toList) := trimBlank_lead hgap hboth
  have hpayload : isPayload payload.toList = true := by
    rw [isPayload, String.ofList_toList]
    exact hdocument
  rw [parseDirect, hrest, splitBlank?_append hnamed.2 hb]
  simp only [trimBlank_lead hgap' htrimmed, hpayload, if_true, String.ofList_toList]

/-- **After the word for a trigger there is none but a trigger**, and it is in these parts. -/
theorem parseDirect_eq_ok {rest : List Char} {e : Option Entry} (h : parseDirect rest = .ok e) :
    ∃ identifier payload, e = some (.direct identifier payload) ∧
      (identifier.toList ≠ [] ∧ AreSolid identifier.toList) ∧ IsTrimmed payload.toList ∧
      Json.isDocument payload = true ∧ ∃ gap b gap' after, AreBlank gap ∧ isBlank b = true ∧ AreBlank gap' ∧
        AreBlank after ∧ rest = gap ++ (identifier.toList ++ b :: (gap' ++ (payload.toList ++ after))) := by
  unfold parseDirect at h
  rcases splitBlank?_cases (trimBlank rest) with hsolid | ⟨word, b, tail, hword, hb, hcut⟩
  · rw [splitBlank?_solid hsolid] at h
    cases h
  · rw [hcut, splitBlank?_append hword hb] at h
    by_cases hpayload : isPayload (trimBlank tail) = true
    · simp only [hpayload, if_true] at h
      obtain ⟨gap, after, hgap, hafter, hrest, htrimmed⟩ := trimBlank_parts rest
      obtain ⟨gap', after', hgap', hafter', htail, htrimmed'⟩ := trimBlank_parts tail
      have hne : word ≠ [] := by
        rintro rfl
        rw [hcut] at htrimmed
        have hsolid := htrimmed.first b rfl
        rw [hb] at hsolid
        cases hsolid
      have hidentifier : (String.ofList word).toList = word := String.toList_ofList
      have htext : (String.ofList (trimBlank tail)).toList = trimBlank tail := String.toList_ofList
      refine ⟨_, _, (Except.ok.inj h).symm, ?_, ?_, hpayload, gap, b, gap', after' ++ after, hgap, hb, hgap',
        List.forall_mem_append.2 ⟨hafter', hafter⟩, ?_⟩
      · rw [hidentifier]
        exact ⟨hne, hword⟩
      · rw [htext]
        exact htrimmed'
      · rw [hidentifier, htext]
        conv_lhs => rw [hrest, hcut, htail]
        simp only [List.append_assoc, List.cons_append]
    · simp only [hpayload] at h
      cases h

/-! ### Lines -/

/-- Whether a line ends the conversation. -/
def ends (line : List Char) : Bool := decide (firstWord line = "exit".toList ∨ firstWord line = "quit".toList)

/-- **What a line can be**, by its first word. -/
inductive Parsed (line : List Char) : Except String (Option Entry) → Prop
  | blank (h : AreBlank line) : Parsed line (.ok none)
  | info (h : firstWord line = "info".toList) : Parsed line (.ok (some .info))
  | exit (h : ends line = true) : Parsed line (.ok (some .exit))
  | direct {identifier payload : String} (h : firstWord line = "direct".toList)
      (hrest : parseDirect (afterWord line) = .ok (some (.direct identifier payload))) :
      Parsed line (.ok (some (.direct identifier payload)))
  | error {complaint : String} : Parsed line (.error complaint)

/-- **Every line is one of these.** -/
theorem parse_parsed (line : List Char) : Parsed line (parse line) := by
  rw [parse_eq]
  by_cases hblank : firstWord line = []
  · rw [if_pos hblank]
    exact .blank (firstWord_eq_nil.1 hblank)
  · rw [if_neg hblank]
    by_cases hinfo : firstWord line = "info".toList
    · rw [if_pos hinfo]
      exact .info hinfo
    · rw [if_neg hinfo]
      by_cases hexit : firstWord line = "exit".toList ∨ firstWord line = "quit".toList
      · rw [if_pos hexit]
        exact .exit (decide_eq_true hexit)
      · rw [if_neg hexit]
        by_cases hdirect : firstWord line = "direct".toList
        · rw [if_pos hdirect]
          cases hrest : parseDirect (afterWord line) with
          | error complaint => exact .error
          | ok e =>
            obtain ⟨identifier, payload, rfl, -⟩ := parseDirect_eq_ok hrest
            exact .direct hdirect hrest
        · rw [if_neg hdirect]
          exact .error

theorem parse_none_iff : parse line = .ok none ↔ AreBlank line := by
  constructor
  · intro h
    have hparsed := parse_parsed line
    rw [h] at hparsed
    cases hparsed with
    | blank hblank => exact hblank
  · intro h
    rw [parse_eq, if_pos (firstWord_eq_nil.2 h)]

theorem parse_info_iff : parse line = .ok (some .info) ↔ firstWord line = "info".toList := by
  constructor
  · intro h
    have hparsed := parse_parsed line
    rw [h] at hparsed
    cases hparsed with
    | info hinfo => exact hinfo
  · intro h
    rw [parse_eq, h, if_neg (by decide), if_pos rfl]

theorem parse_exit_iff : parse line = .ok (some .exit) ↔ ends line = true := by
  constructor
  · intro h
    have hparsed := parse_parsed line
    rw [h] at hparsed
    cases hparsed with
    | exit hexit => exact hexit
  · intro h
    rw [parse_eq]
    rcases of_decide_eq_true h with hword | hword
    · rw [hword, if_neg (by decide), if_neg (by decide), if_pos (.inl rfl)]
    · rw [hword, if_neg (by decide), if_neg (by decide), if_pos (.inr rfl)]

/-- A trigger, where a line is cut after its word. -/
theorem parse_of_cut {rest : List Char} (h : splitBlank? (trimBlank line) = some ("direct".toList, rest)) :
    parse line = parseDirect rest := by
  have hfirst : firstWord line = "direct".toList := by rw [← head_cut, h]; rfl
  have hafter : afterWord line = rest := by rw [afterWord, h]; rfl
  rw [parse_eq, hfirst, hafter, if_neg (by decide), if_neg (by decide), if_neg (by decide), if_pos rfl]

/-- **A line in its parts is a trigger**, with the identifier and the payload as they stand there. -/
theorem IsDirect.parses (h : IsDirect line identifier payload) :
    parse line = .ok (some (.direct identifier payload)) := by
  obtain ⟨before, gap, gap', after, hbefore, ⟨hgap, hne⟩, ⟨hgap', hne'⟩, hafter, hparts⟩ := h.parts
  obtain ⟨b, gap, rfl⟩ := List.exists_cons_of_ne_nil hne
  obtain ⟨b', gap', rfl⟩ := List.exists_cons_of_ne_nil hne'
  obtain ⟨hb, hgap⟩ := List.forall_mem_cons.1 hgap
  obtain ⟨hb', hgap'⟩ := List.forall_mem_cons.1 hgap'
  have hline : trimBlank line =
      "direct".toList ++ b :: (gap ++ (identifier.toList ++ b' :: (gap' ++ payload.toList))) := by
    have hfirst : ∀ c ∈ "direct".toList.head?, isBlank c = false :=
      fun c hc => areSolid_direct c (List.mem_of_mem_head? hc)
    have htrimmed : IsTrimmed ("direct".toList ++
        ((b :: gap ++ identifier.toList ++ b' :: gap') ++ payload.toList)) :=
      isTrimmed_append hfirst h.trimmed.last (by decide) (ne_nil_of_isDocument h.document)
    have hleft := trimBlank_append hbefore hafter htrimmed
    rw [hparts]
    simp only [List.append_assoc, List.cons_append] at hleft ⊢
    exact hleft
  have hcut := splitBlank?_append areSolid_direct hb (gap ++ (identifier.toList ++ b' :: (gap' ++ payload.toList)))
  rw [← hline] at hcut
  rw [parse_of_cut hcut]
  exact parseDirect_append hgap h.named hb' hgap' h.trimmed h.document

/-- **The lines that fire a trigger**, and what they fire. -/
theorem parse_direct_iff : parse line = .ok (some (.direct identifier payload)) ↔ IsDirect line identifier payload := by
  refine ⟨fun h => ?_, IsDirect.parses⟩
  have hparsed := parse_parsed line
  rw [h] at hparsed
  obtain ⟨hfirst, hdirect⟩ : firstWord line = "direct".toList ∧
      parseDirect (afterWord line) = .ok (some (.direct identifier payload)) := by
    cases hparsed with
    | direct hfirst hdirect => exact ⟨hfirst, hdirect⟩
  obtain ⟨_, _, he, hnamed, htrimmed, hdocument, gap, b', gap', after, hgap, hb', hgap', hafter, hrest⟩ :=
    parseDirect_eq_ok hdirect
  obtain ⟨rfl, rfl⟩ := Entry.direct.inj (Option.some.inj he)
  rcases splitBlank?_cases (trimBlank line) with hsolid | ⟨word, b, rest, hword, hb, hline⟩
  · -- a line of one word has nothing after it
    have hnone : afterWord line = [] := by rw [afterWord, splitBlank?_solid hsolid]; rfl
    rw [hnone] at hdirect
    cases hdirect
  · have hcut : splitBlank? (trimBlank line) = some (word, rest) := by rw [hline, splitBlank?_append hword hb]
    have hafterWord : afterWord line = rest := by rw [afterWord, hcut]; rfl
    obtain rfl : word = "direct".toList := by rw [← hfirst, ← head_cut, hcut]; rfl
    obtain ⟨before, after', hbefore, hafter', hparts, -⟩ := trimBlank_parts line
    refine ⟨⟨before, b :: gap, b' :: gap', after ++ after', hbefore,
      ⟨List.forall_mem_cons.2 ⟨hb, hgap⟩, List.cons_ne_nil _ _⟩,
      ⟨List.forall_mem_cons.2 ⟨hb', hgap'⟩, List.cons_ne_nil _ _⟩,
      List.forall_mem_append.2 ⟨hafter, hafter'⟩, ?_⟩, hnamed, htrimmed, hdocument⟩
    conv_lhs => rw [hparts, hline, ← hafterWord, hrest]
    simp only [List.append_assoc, List.cons_append]

example : parse "\u00a0direct  a1\t[1, 2] ".toList = .ok (some (.direct "a1" "[1, 2]")) := by decide +kernel

/-! ### Conversations -/

/-- The command for an entry. -/
def Entry.command? : Entry → Option Command
  | .info => some .info
  | .direct identifier payload => some (.trigger identifier payload)
  | .exit => none

/-- What a line asks for: nothing, if it is blank or an error. -/
def request? (line : List Char) : Option Command := (parse line).toOption.join.bind Entry.command?

/-- **What the lines of a conversation ask for**, up to the first that ends it. -/
def requests (lines : List (List Char)) : List Command :=
  (lines.takeWhile fun line => !ends line).filterMap request?

/-- **A line asks for one thing at most**: what the agent says about itself, or a trigger. -/
theorem request?_eq_some {c : Command} : request? line = some c ↔
    (parse line = .ok (some .info) ∧ c = .info) ∨
      ∃ identifier payload, parse line = .ok (some (.direct identifier payload)) ∧ c = .trigger identifier payload := by
  unfold request?
  cases parse line with
  | error complaint => simp [Except.toOption]
  | ok e =>
    cases e with
    | none => simp [Except.toOption]
    | some e => cases e <;> simp [Except.toOption, Entry.command?, eq_comm]

variable {α : Type}

/-- Does what a line says. -/
def advance (d : Desk α) (line : List Char) (session : Session α) : Session α :=
  match parse line with
  | .ok none => session
  | .ok (some e) => perform d e session
  | .error complaint => { session with complaints := session.complaints ++ [complaint] }

/-- **One line of a conversation.** -/
theorem converse_cons (d : Desk α) (line : List Char) (rest : List (List Char)) (session : Session α) :
    converse d (line :: rest) session = if ends line then session else converse d rest (advance d line session) := by
  by_cases hends : ends line = true
  · rw [if_pos hends, converse, parse_exit_iff.2 hends]
  · have hother : parse line ≠ .ok (some .exit) := mt parse_exit_iff.1 hends
    rw [if_neg hends, converse]
    unfold advance
    cases hparse : parse line with
    | error complaint => rfl
    | ok e =>
      cases e with
      | none => rfl
      | some e =>
        cases e with
        | info => rfl
        | direct identifier payload => rfl
        | exit => exact absurd hparse hother

/-- **A conversation is its lines up to the first that ends it**, one after the other. -/
theorem converse_eq_foldl (d : Desk α) (lines : List (List Char)) (session : Session α) :
    converse d lines session =
      (lines.takeWhile fun line => !ends line).foldl (fun session line => advance d line session) session := by
  induction lines generalizing session with
  | nil => rfl
  | cons line rest ih =>
    rw [converse_cons, List.takeWhile_cons]
    cases hends : ends line with
    | true => rfl
    | false => exact ih (advance d line session)

/-! ### What is asked -/

/-- The same desk, with a log of the commands that it was asked. -/
def logged (d : Desk α) : Desk (α × List Command) :=
  ⟨fun c a => ((d.ask c a.1).1, (d.ask c a.1).2, a.2 ++ [c]), fun text a => (d.print text a.1, a.2)⟩

/-- A session, and the log of it. -/
def Session.withLog (session : Session α) (log : List Command) : Session (α × List Command) :=
  ⟨(session.agent, log), session.complaints⟩

/-- An entry asks for its command, whoever is asked. -/
theorem perform_logged (d : Desk α) (e : Entry) (session : Session α) (log : List Command) :
    perform (logged d) e (session.withLog log) = (perform d e session).withLog (log ++ e.command?.toList) := by
  cases e with
  | exit => simp [perform, Entry.command?]
  | info =>
    cases hask : d.ask .info session.agent with
    | mk reply a =>
      simp only [perform, logged, Session.withLog, hask, Entry.command?, Option.toList_some]
      cases reply with
      | error e => rfl
      | ok r => cases r <;> rfl
  | direct identifier payload =>
    cases hask : d.ask (.trigger identifier payload) session.agent with
    | mk reply a =>
      simp only [perform, logged, Session.withLog, hask, Entry.command?, Option.toList_some]
      cases reply <;> rfl

/-- **What one line asks for.** -/
theorem advance_logged (d : Desk α) (line : List Char) (session : Session α) (log : List Command) :
    advance (logged d) line (session.withLog log) =
      (advance d line session).withLog (log ++ (request? line).toList) := by
  unfold advance request?
  cases parse line with
  | error complaint =>
    have hnone : log ++ (none : Option Command).toList = log := List.append_nil log
    exact congrArg (Session.withLog ⟨session.agent, session.complaints ++ [complaint]⟩) hnone.symm
  | ok e =>
    cases e with
    | none => exact congrArg session.withLog (List.append_nil log).symm
    | some e => exact perform_logged d e session log

/-- **And what a conversation does.** -/
theorem converse_logged (d : Desk α) (lines : List (List Char)) (session : Session α) (log : List Command) :
    converse (logged d) lines (session.withLog log) = (converse d lines session).withLog (log ++ requests lines) := by
  -- both sides are runs over the same lines, so what is left is one line after another
  rw [converse_eq_foldl, converse_eq_foldl, requests]
  induction lines.takeWhile (fun line => !ends line) generalizing session log with
  | nil => rw [List.filterMap_nil, List.append_nil]; rfl
  | cons line rest ih =>
    rw [List.foldl_cons, List.foldl_cons, advance_logged, ih, List.append_assoc]
    cases hrequest : request? line with
    | none => rw [List.filterMap_cons_none hrequest]; rfl
    | some c => rw [List.filterMap_cons_some hrequest]; rfl

/-- **What is typed at the console is what is asked.** A line fires a trigger exactly if it is one in its parts, and
with the identifier and the payload that stand there. Whoever is asked, a conversation asks for what its lines say, one
thing for each that says something, in their order, and is over at the first line whose first word is `exit` or `quit`.
-/
theorem converse_follows :
    (∀ line identifier payload, parse line = .ok (some (.direct identifier payload)) ↔
        IsDirect line identifier payload) ∧
      (∀ line, (parse line = .ok none ↔ AreBlank line) ∧
        (parse line = .ok (some .info) ↔ firstWord line = "info".toList) ∧
        (parse line = .ok (some .exit) ↔
          firstWord line = "exit".toList ∨ firstWord line = "quit".toList)) ∧
      (∀ line c, request? line = some c ↔
        (parse line = .ok (some .info) ∧ c = .info) ∨
          ∃ identifier payload, parse line = .ok (some (.direct identifier payload)) ∧
            c = .trigger identifier payload) ∧
      ∀ (α : Type) (d : Desk α) (lines : List (List Char)) (session : Session α),
        converse (logged d) lines (session.withLog []) = (converse d lines session).withLog (requests lines) ∧
          converse d lines session =
            (lines.takeWhile fun line => !ends line).foldl (fun session line => advance d line session) session := by
  refine ⟨fun _ _ _ => parse_direct_iff, fun line => ?_, fun line c => request?_eq_some, fun α d lines session => ?_⟩
  · exact ⟨parse_none_iff, parse_info_iff, parse_exit_iff.trans decide_eq_true_iff⟩
  · exact ⟨converse_logged d lines session [], converse_eq_foldl d lines session⟩

end FlowHost.Console
