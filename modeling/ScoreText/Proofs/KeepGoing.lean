import ScoreText.Command.Reader
import ScoreText.Proofs.Acceptance
import ScoreText.Proofs.Arguments

/-!
Whether the parser may skip ahead after a malformed item cannot be seen in what it returns. Where
more than one error may be recorded it skips ahead anyway, and where one is the limit the first
malformed item is the last thing it looks at. So the option to keep going changes no result of a
parse, and a command line with the flag `--partial` leaves behind what it leaves behind without it,
but for lines of the debug log (`allowPartial_unobservable`).
-/

namespace ScoreText

/-! ## Results -/

/-- What tokens with an end token among them are parsed to, or why they are not, does not depend on
the option to keep going. -/
theorem parseTokens_allowPartial (strict : Bool) (n : Int) (b b' : Bool) {tokens : List Token}
    (h : ∃ t ∈ tokens, t.kind = .eof) :
    parseTokens ⟨strict, b, n⟩ tokens = parseTokens ⟨strict, b', n⟩ tokens := by
  have hevents (options : ParserOptions) :
      tokenEvents options tokens = (Cursor.ofTokens tokens).events options.limit :=
    Cursor.readEvents_eq_events options (hasEnd_ofTokens h)
  simp only [parseTokens, hevents]
  rfl

theorem parseText_allowPartial (strict : Bool) (n : Int) (b b' : Bool) (text : String) :
    parseText ⟨strict, b, n⟩ text = parseText ⟨strict, b', n⟩ text := by
  rw [parseText_eq, parseText_eq]
  rfl

theorem parse_allowPartial (strict : Bool) (n : Int) (b b' : Bool) (input : Input) :
    parse ⟨strict, b, n⟩ input = parse ⟨strict, b', n⟩ input := by
  cases input with
  | text text => exact parseText_allowPartial strict n b b' text
  | other kind => rfl

/-! ## Outcomes -/

/-- Two outcomes are the same but for lines of the debug log, which stand in front of all other
lines on the error output. Without a log they are the same altogether. -/
structure Outcome.SameButLog (verbose : Bool) (a b : Outcome) : Prop where
  exitCode : a.exitCode = b.exitCode
  stdout : a.stdout = b.stdout
  folder : a.folder = b.folder
  uncaught : a.uncaught = b.uncaught
  stderr : ∃ (log log' : List Trace) (lines : List String),
    a.stderr = log.map Trace.line ++ lines ∧ b.stderr = log'.map Trace.line ++ lines
  quiet : verbose = false → a = b

theorem Outcome.SameButLog.refl (verbose : Bool) (a : Outcome) : a.SameButLog verbose a :=
  ⟨rfl, rfl, rfl, rfl, ⟨[], [], a.stderr, rfl, rfl⟩, fun _ => rfl⟩

namespace Session

/-- The entries that a session writes to its log. -/
private theorem log_eq (s : Session) (entries : List Trace) :
    s.log entries = (if s.verbose then entries else []).map Trace.line := by
  unfold log
  split <;> rfl

theorem sameButLog_runCheck {s s' : Session} (hs : s.verbose = s'.verbose) (folder : Folder)
    (strict : Bool) (n : Int) (b b' : Bool) (text : String) :
    (s.runCheck folder ⟨strict, b, n⟩ text).SameButLog s.verbose
      (s'.runCheck folder ⟨strict, b', n⟩ text) := by
  unfold runCheck
  rw [parseText_allowPartial strict n b b' text, log_eq, log_eq, ← hs]
  dsimp only
  split
  · next fault _ =>
    exact ⟨rfl, rfl, rfl, rfl, ⟨_, _, _, rfl, rfl⟩, fun hquiet => by simp [hquiet]⟩
  · next result _ =>
    split
    · exact ⟨rfl, rfl, rfl, rfl, ⟨_, _, [], (List.append_nil _).symm, (List.append_nil _).symm⟩,
        fun hquiet => by simp [hquiet]⟩
    · exact ⟨rfl, rfl, rfl, rfl, ⟨_, _, _, rfl, rfl⟩, fun hquiet => by simp [hquiet]⟩

end Session

def Request.dropKeepGoing : Request → Request
  | .check path options => .check path { options with allowPartial := false }
  | request => request

theorem sameButLog_run (verbose : Bool) {q q' : Request}
    (h : q.dropKeepGoing = q'.dropKeepGoing) (press : Press) (folder : Folder) :
    (Session.run ⟨verbose, q⟩ press folder).SameButLog verbose
      (Session.run ⟨verbose, q'⟩ press folder) := by
  cases q with
  | check path options =>
    cases q' with
    | check path' options' =>
      obtain ⟨strict, b, n⟩ := options
      obtain ⟨strict', b', n'⟩ := options'
      simp only [Request.dropKeepGoing, Request.check.injEq, ParserOptions.mk.injEq, true_and]
        at h
      obtain ⟨rfl, rfl, rfl⟩ := h
      unfold Session.run
      dsimp only
      split
      · next text _ =>
        exact Session.sameButLog_runCheck (s := ⟨verbose, _⟩) rfl folder strict n b b' text
      · exact .refl _ _
    | _ => cases h
  | _ =>
    cases q' <;> cases h
    exact .refl _ _

def Session.dropKeepGoing (s : Session) : Session := { s with request := s.request.dropKeepGoing }

/-- Command lines that are read alike, but for the option to keep going, leave the same behind, but
for lines of the log. -/
theorem sameButLog_runWith {read : ArgumentReader} {folder : Folder} {xs ys : List String}
    (h : (read folder xs).map Session.dropKeepGoing = (read folder ys).map Session.dropKeepGoing)
    {verbose : Bool} (hverbose : ∀ s, read folder xs = .ok s → s.verbose = verbose)
    (press : Press) :
    (runWith read press folder xs).SameButLog verbose (runWith read press folder ys) := by
  unfold runWith
  cases hx : read folder xs with
  | error wrong =>
    cases hy : read folder ys with
    | error wrong' =>
      rw [hx, hy] at h
      cases h
      exact .refl _ _
    | ok s' =>
      rw [hx, hy] at h
      cases h
  | ok s =>
    cases hy : read folder ys with
    | error wrong' =>
      rw [hx, hy] at h
      cases h
    | ok s' =>
      rw [hx, hy] at h
      obtain ⟨loud, q⟩ := s
      obtain ⟨loud', q'⟩ := s'
      obtain ⟨rfl, hq⟩ := Session.mk.inj (Except.ok.inj h)
      obtain rfl := hverbose _ hx
      exact sameButLog_run _ hq press folder

/-! ## The flag among the arguments -/

/-- What `check` is asked for without the flag to keep going is what it is asked for with it, but
for the flag. -/
theorem Arguments.request_drop (a : Arguments) (folder : Folder) :
    (a.drop .keepGoing).request folder .check =
      (a.request folder .check).map Request.dropKeepGoing := by
  have hhelp : (a.drop .keepGoing).has .help = a.has .help := has_drop (by decide) a
  have hlenient : (a.drop .keepGoing).has .lenient = a.has .lenient := has_drop (by decide) a
  have hmax : (a.drop .keepGoing).valueOr .maxErrors 10 readMaxErrors =
      a.valueOr .maxErrors 10 readMaxErrors := by
    rw [valueOr, valueOr, value?_drop (by decide)]
  have hgo : (a.drop .keepGoing).has .keepGoing = false := by
    simp [has, drop]
  have hvalues : (a.drop .keepGoing).checkValues = a.checkValues :=
    checkValues_drop (fun _ => rfl) a
  have hfile : (a.drop .keepGoing).file folder = a.file folder := rfl
  unfold request
  simp only [hhelp, hlenient, hmax, hgo, hvalues, hfile]
  split
  · rfl
  · cases a.checkValues with
    | error fault => rfl
    | ok _ =>
      cases a.file folder with
      | error fault => rfl
      | ok path =>
        cases a.valueOr .maxErrors 10 readMaxErrors with
        | error fault => rfl
        | ok n => rfl

def sortCheck : List String → Except UsageFault Arguments :=
  sortArguments Command.check.spellings false

/-- Behind the arguments of `xs`, `--partial` is read as a flag: not as the value of an option that
waits for one, nor as an operand behind `--`. -/
def IsFlagAfter (xs : List String) : Prop :=
  sortCheck (xs ++ ["--partial"]) =
    (sortCheck xs).map fun a => a.append ⟨[(.keepGoing, "")], []⟩

/-- Two lists of arguments are read alike, but for the flag to keep going. -/
def ReadAlike (xs ys : List String) : Prop :=
  (sortCheck xs).map (Arguments.drop .keepGoing) = (sortCheck ys).map (Arguments.drop .keepGoing)

private theorem readAlike_of_front {xs ys us vs : List String} {front : Arguments}
    (hx : sortCheck us = (sortCheck xs).map front.append)
    (hy : sortCheck vs = (sortCheck ys).map front.append) (h : ReadAlike xs ys) :
    ReadAlike us vs := by
  have hdrop (x : Except UsageFault Arguments) :
      (x.map front.append).map (Arguments.drop .keepGoing) =
        (x.map (Arguments.drop .keepGoing)).map (front.drop .keepGoing).append := by
    cases x with
    | error fault => rfl
    | ok a => exact congrArg Except.ok (Arguments.drop_append .keepGoing front a)
  unfold ReadAlike at *
  rw [hx, hy, hdrop, hdrop, h]

private theorem isFlagAfter_of_front {xs us : List String} {front : Arguments}
    (hx : sortCheck us = (sortCheck xs).map front.append)
    (hp : sortCheck (us ++ ["--partial"]) = (sortCheck (xs ++ ["--partial"])).map front.append)
    (h : IsFlagAfter us) : IsFlagAfter xs := by
  unfold IsFlagAfter at *
  rw [hx, hp] at h
  refine map_inj (fun a b => Arguments.append_inj) (h.trans ?_)
  cases sortCheck xs with
  | error fault => rfl
  | ok a => simp [Except.map, Arguments.append]

/-- Where `--partial` is read as a flag, nothing else is read differently because of it. -/
theorem readAlike_of_isFlagAfter {xs : List String} (h : IsFlagAfter xs) (ys : List String) :
    ReadAlike (xs ++ "--partial" :: ys) (xs ++ ys) := by
  induction hn : xs.length using Nat.strongRecOn generalizing xs with
  | ind n ih =>
    cases xs with
    | nil =>
      have hflag : sortCheck ("--partial" :: ys) =
          (sortCheck ys).map (Arguments.append ⟨[(.keepGoing, "")], []⟩) := rfl
      unfold ReadAlike
      rw [List.nil_append, List.nil_append, hflag]
      cases sortCheck ys <;> rfl
    | cons argument rest =>
      have hlen : rest.length < n := by
        rw [← hn]
        exact Nat.lt_succ_self _
      rcases sortArguments_cons Command.check.spellings false argument with
        ⟨fault, hsort⟩ | ⟨front, hsort⟩ | ⟨first, hsort⟩ | ⟨fault, front, hnone, hsort⟩
      · exact congrArg (Except.map _) ((hsort _).trans (hsort _).symm)
      · have hrest := isFlagAfter_of_front (hsort rest) (hsort (rest ++ ["--partial"])) h
        exact readAlike_of_front (hsort _) (hsort _) (ih _ hlen hrest rfl)
      · -- Here `--partial` would be an operand.
        have hoperand : (.ok ⟨[], _⟩ : Except UsageFault Arguments) = .ok ⟨_, _⟩ :=
          (hsort _).symm.trans (h.trans (congrArg (Except.map _) (hsort rest)))
        simp at hoperand
      · cases rest with
        | nil =>
          -- Here it would be a value.
          have hvalue := (hsort "--partial" []).symm.trans
            (h.trans (congrArg (Except.map _) hnone))
          cases hvalue
        | cons value rest =>
          have hshort : rest.length < n := Nat.lt_of_succ_lt hlen
          have hrest :=
            isFlagAfter_of_front (hsort value rest) (hsort value (rest ++ ["--partial"])) h
          exact readAlike_of_front (hsort _ _) (hsort _ _) (ih _ hshort hrest rfl)

/-! ## Command lines -/

/-- Arguments of `check` that are read alike ask for the same, but for the flag. -/
theorem readCommand_of_readAlike {xs ys : List String} (h : ReadAlike xs ys) (folder : Folder) :
    (readCommand folder .check xs).map Request.dropKeepGoing =
      (readCommand folder .check ys).map Request.dropKeepGoing := by
  have hread (zs : List String) : (readCommand folder .check zs).map Request.dropKeepGoing =
      (((sortCheck zs).map (Arguments.drop .keepGoing)).bind
        (·.request folder .check)).mapError fun fault => ⟨some .check, fault⟩ := by
    unfold readCommand
    show (((sortCheck zs).bind _).mapError _).map _ = _
    cases sortCheck zs with
    | error fault => rfl
    | ok a =>
      show ((a.request folder .check).mapError _).map _ =
        ((a.drop .keepGoing).request folder .check).mapError _
      rw [Arguments.request_drop]
      cases a.request folder .check <;> rfl
  rw [hread, hread, h]

theorem sameButLog_runCommandLine {front xs ys : List String} {options : List (Opt × String)}
    (hfront : sortArguments programSpellings true front = .ok ⟨options, []⟩)
    (h : ReadAlike xs ys) (press : Press) (folder : Folder) :
    (runCommandLine press folder (front ++ "check" :: xs)).SameButLog
      (options.any (·.1 = .verbose))
      (runCommandLine press folder (front ++ "check" :: ys)) := by
  have hread (zs : List String) : readSession folder (front ++ "check" :: zs) = _ :=
    readSession_command hfront folder .check zs
  refine sameButLog_runWith ?_ (fun s hs => ?_) press
  · have hdrop (x : Except WrongUsage Request) (verbose : Bool) :
        (x.map (Session.mk verbose)).map Session.dropKeepGoing =
          (x.map Request.dropKeepGoing).map (Session.mk verbose) := by
      cases x <;> rfl
    rw [hread, hread]
    cases Arguments.early? ⟨options, []⟩ with
    | some request => rfl
    | none =>
      rw [Option.elim_none, Option.elim_none, hdrop, hdrop, readCommand_of_readAlike h folder]
  · rw [hread] at hs
    obtain ⟨q, -, rfl⟩ := ok_of_map hs
    rfl

/-- **Nothing shows whether the parser may keep going.** With and without the option, every input
is parsed to the same result, and so is every token list with an end token, or it fails for the same
reason. A command line with `check` leaves the same behind with the flag `--partial`, wherever it is
read as one, as without it, but for lines of the debug log. -/
theorem allowPartial_unobservable :
    (∀ strict n input, parse ⟨strict, true, n⟩ input = parse ⟨strict, false, n⟩ input) ∧
    (∀ strict n tokens, (∃ t ∈ tokens, t.kind = .eof) →
      parseTokens ⟨strict, true, n⟩ tokens = parseTokens ⟨strict, false, n⟩ tokens) ∧
    ∀ press folder front options xs ys,
      sortArguments programSpellings true front = .ok ⟨options, []⟩ → IsFlagAfter xs →
      (runCommandLine press folder (front ++ "check" :: (xs ++ "--partial" :: ys))).SameButLog
        (options.any (·.1 = .verbose))
        (runCommandLine press folder (front ++ "check" :: (xs ++ ys))) := by
  refine ⟨fun strict n input => ?_, fun strict n tokens hend => ?_, ?_⟩
  · exact parse_allowPartial strict n true false input
  · exact parseTokens_allowPartial strict n true false hend
  · intro press folder front options xs ys hfront hflag
    exact sameButLog_runCommandLine hfront (readAlike_of_isFlagAfter hflag ys) press folder

/-- With a limit of one error and a log, the flag shows: in one more line of the log and nowhere
else. Tokens from elsewhere fail for the same reason with the option and without it. -/
theorem allowPartial_unobservable_at_one :
    let folder : Folder := { files := [(.inFolder ["song.score"], [67, 32, 113])] }
    let run := runCommandLine .absent folder
    let tokens : List Token :=
      [⟨.note, "C", .start⟩, ⟨.accidental, "x", .start⟩, .endAt .start]
    (run ["-v", "check", "song.score", "--max-errors", "1", "--partial"]).SameButLog true
      (run ["-v", "check", "song.score", "--max-errors", "1"]) ∧
    (run ["-v", "check", "song.score", "--max-errors", "1", "--partial"]).stderr.length = 5 ∧
    (run ["-v", "check", "song.score", "--max-errors", "1"]).stderr.length = 4 ∧
    parseTokens ⟨true, true, 1⟩ tokens = .error (.accidental "x") ∧
    parseTokens ⟨true, false, 1⟩ tokens = .error (.accidental "x") := by
  intro folder run tokens
  have hfault : (tokenEvents ⟨true, false, 1⟩ tokens).findSome? Event.fault? =
      some (.accidental "x") := by decide +kernel
  have hfails : parseTokens ⟨true, false, 1⟩ tokens = .error (.accidental "x") := by
    simp only [parseTokens]
    rw [hfault]
  refine ⟨?_, by decide +kernel, by decide +kernel, ?_, hfails⟩
  · exact allowPartial_unobservable.2.2 _ folder ["-v"] [(.verbose, "")]
      ["song.score", "--max-errors", "1"] [] rfl rfl
  · rw [allowPartial_unobservable.2.1 true 1 tokens ⟨.endAt .start, by simp [tokens], rfl⟩]
    exact hfails

end ScoreText
