import ScoreText.Command.Reader

/-!
How a command line is taken apart. Sorting arguments into options and operands goes argument by
argument (`sortArguments_cons`), so a word behind the program's own options is the command and what
follows belongs to it (`sortArguments_command`, `readSession_command`). An option that no check
looks at can be left out without anything else being read differently.
-/

namespace ScoreText

/-! ## Lists and results -/

theorem eraseDups_filter {α : Type} [BEq α] [LawfulBEq α] (p : α → Bool) (xs : List α) :
    (xs.filter p).eraseDups = xs.eraseDups.filter p := by
  induction hn : xs.length using Nat.strongRecOn generalizing xs with
  | ind n ih =>
    cases xs with
    | nil => rfl
    | cons x xs =>
      have hlt : (xs.filter fun y => !y == x).length < n := by
        have := List.length_filter_le (fun y => !y == x) xs
        rw [← hn, List.length_cons]
        omega
      have hrest := ih _ hlt _ rfl
      rw [List.eraseDups_cons, List.filter_cons, List.filter_cons]
      split
      · rw [List.eraseDups_cons, ← hrest, List.filter_filter, List.filter_filter]
        congr 3
        funext y
        exact Bool.and_comm _ _
      · next hx =>
        rw [← hrest, List.filter_filter]
        congr 1
        refine List.filter_congr fun y _ => ?_
        by_cases hy : y = x
        · simp [hy, hx]
        · simp [hy]

/-- A check that passes on some members can leave them out. -/
theorem forM_filter {α ε : Type} {f g : α → Except ε Unit} {p : α → Bool}
    (hout : ∀ x, p x = false → g x = .ok ()) (hin : ∀ x, p x = true → f x = g x) (xs : List α) :
    (xs.filter p).forM f = xs.forM g := by
  induction xs with
  | nil => rfl
  | cons x xs ih =>
    cases hx : p x with
    | true =>
      rw [List.filter_cons_of_pos hx]
      show (f x >>= fun _ => (xs.filter p).forM f) = (g x >>= fun _ => xs.forM g)
      rw [hin x hx, ih]
    | false =>
      rw [List.filter_cons_of_neg (by simp [hx]), ih]
      show xs.forM g = (g x >>= fun _ => xs.forM g)
      rw [hout x hx]
      rfl

theorem map_inj {α β ε : Type} {f : α → β} (hf : ∀ a b, f a = f b → a = b) {x y : Except ε α}
    (h : x.map f = y.map f) : x = y := by
  cases x <;> cases y <;> simp [Except.map] at h ⊢
  · exact h
  · exact hf _ _ h

theorem ok_of_bind {α β ε : Type} {x : Except ε α} {f : α → Except ε β} {b : β}
    (h : x.bind f = .ok b) : ∃ a, x = .ok a ∧ f a = .ok b := by
  cases x with
  | error e => cases h
  | ok a => exact ⟨a, rfl, h⟩

theorem ok_of_map {α β ε : Type} {x : Except ε α} {f : α → β} {b : β} (h : x.map f = .ok b) :
    ∃ a, x = .ok a ∧ f a = b := by
  cases x with
  | error fault => cases h
  | ok a => exact ⟨a, rfl, Except.ok.inj h⟩

theorem ok_of_mapError {α ε ε' : Type} {x : Except ε α} {f : ε → ε'} {a : α}
    (h : x.mapError f = .ok a) : x = .ok a := by
  cases x with
  | error e => cases h
  | ok a' => exact congrArg Except.ok (Except.ok.inj h)

theorem error_of_bind {α β ε : Type} {x : Except ε α} {f : α → Except ε β} {e : ε}
    (h : x.bind f = .error e) : x = .error e ∨ ∃ a, x = .ok a ∧ f a = .error e := by
  cases x with
  | error e' => exact .inl (congrArg Except.error (Except.error.inj h))
  | ok a => exact .inr ⟨a, rfl, h⟩

theorem error_of_map {α β ε : Type} {x : Except ε α} {f : α → β} {e : ε}
    (h : x.map f = .error e) : x = .error e := by
  cases x with
  | error e' => exact congrArg Except.error (Except.error.inj h)
  | ok a => cases h

theorem error_of_mapError {α ε ε' : Type} {x : Except ε α} {f : ε → ε'} {e' : ε'}
    (h : x.mapError f = .error e') : ∃ e, x = .error e ∧ f e = e' := by
  cases x with
  | error e => exact ⟨e, rfl, Except.error.inj h⟩
  | ok a => cases h

theorem ok_of_toOption {α ε : Type} {x : Except ε α} {a : α} (h : x.toOption = some a) :
    x = .ok a := by
  cases x with
  | error e => cases h
  | ok a' => exact congrArg Except.ok (Option.some.inj h)

/-! ## Options that are left out -/

namespace Arguments

def drop (opt : Opt) (a : Arguments) : Arguments :=
  { a with options := a.options.filter (·.1 ≠ opt) }

theorem has_drop {opt other : Opt} (h : other ≠ opt) (a : Arguments) :
    (a.drop opt).has other = a.has other := by
  unfold has drop
  rw [List.any_filter]
  congr 1
  funext x
  by_cases hx : x.1 = other
  · simp [hx, h]
  · simp [hx]

theorem value?_drop {opt other : Opt} (h : other ≠ opt) (a : Arguments) :
    (a.drop opt).value? other = a.value? other := by
  unfold value? drop
  rw [List.filter_filter]
  congr 3
  funext x
  by_cases hx : x.1 = other
  · simp [hx, h]
  · simp [hx]

/-- An option whose value is not checked makes no difference to the check of all values. -/
theorem checkValues_drop {opt : Opt} (h : ∀ value, checkValue opt value = .ok ())
    (a : Arguments) : (a.drop opt).checkValues = a.checkValues := by
  have hdistinct : (a.drop opt).distinct = a.distinct.filter (· ≠ opt) := by
    rw [distinct, distinct, ← eraseDups_filter, List.filter_map]
    rfl
  unfold checkValues
  rw [hdistinct]
  refine forM_filter (fun x hx => ?_) (fun x hx => ?_) a.distinct
  · obtain rfl : x = opt := by simpa using hx
    exact h _
  · rw [value?_drop (by simpa using hx)]

def append (a b : Arguments) : Arguments := ⟨a.options ++ b.options, a.operands ++ b.operands⟩

theorem append_inj {a b c : Arguments} (h : a.append b = a.append c) : b = c := by
  obtain ⟨options, operands⟩ := b
  simp only [append, mk.injEq] at h
  rw [List.append_cancel_left h.1, List.append_cancel_left h.2]

theorem addFlags_addOption (flags : List Opt) (opt : Opt) (value : String) :
    (fun a : Arguments => (a.addOption opt value).addFlags flags) =
      append ⟨flags.map (·, "") ++ [(opt, value)], []⟩ := by
  funext a
  simp [append, addFlags, addOption]

theorem drop_append (opt : Opt) (a b : Arguments) :
    (a.append b).drop opt = (a.drop opt).append (b.drop opt) := by
  simp [append, drop]

end Arguments

/-! ## Sorting -/

/-- What one argument does to the reading of those behind it. It is at fault; or it is read by
itself; or it makes all that follows operands; or it waits for the next one as its value. -/
theorem sortArguments_cons (spellings : Spellings) (operandsEnd : Bool) (argument : String) :
    let sort := sortArguments spellings operandsEnd
    (∃ fault, ∀ more, sort (argument :: more) = .error fault) ∨
    (∃ front : Arguments, ∀ more, sort (argument :: more) = (sort more).map front.append) ∨
    (∃ first, ∀ more, sort (argument :: more) = .ok ⟨[], first ++ more⟩) ∨
    (∃ fault, ∃ front : String → Arguments, sort [argument] = .error fault ∧
      ∀ value more, sort (argument :: value :: more) = (sort more).map (front value).append) := by
  dsimp only
  by_cases hend : argument = "--"
  · refine .inr (.inr (.inl ⟨[], fun more => ?_⟩))
    rw [sortArguments, if_pos hend]
    rfl
  cases hgroup : optionGroup? spellings argument with
  | none =>
    cases operandsEnd with
    | true =>
      refine .inr (.inr (.inl ⟨[argument], fun more => ?_⟩))
      rw [sortArguments, if_neg hend, hgroup]
      rfl
    | false =>
      refine .inr (.inl ⟨⟨[], [argument]⟩, fun more => ?_⟩)
      rw [sortArguments, if_neg hend, hgroup]
      rfl
  | some group =>
    match group, hgroup with
    | .error fault, hgroup =>
      refine .inl ⟨fault, fun more => ?_⟩
      rw [sortArguments, if_neg hend, hgroup]
    | .ok ⟨flags, none⟩, hgroup =>
      refine .inr (.inl ⟨⟨flags.map (·, ""), []⟩, fun more => ?_⟩)
      rw [sortArguments, if_neg hend, hgroup]
      rfl
    | .ok ⟨flags, some (opt, name, some value)⟩, hgroup =>
      refine .inr (.inl ⟨⟨flags.map (·, "") ++ [(opt, value)], []⟩, fun more => ?_⟩)
      rw [sortArguments, if_neg hend, hgroup, ← Arguments.addFlags_addOption]
    | .ok ⟨flags, some (opt, name, none)⟩, hgroup =>
      refine .inr (.inr (.inr ⟨.missingValue name,
        fun value => ⟨flags.map (·, "") ++ [(opt, value)], []⟩, ?_, fun value more => ?_⟩))
      · rw [sortArguments, if_neg hend, hgroup]
      · rw [sortArguments, if_neg hend, hgroup, ← Arguments.addFlags_addOption]

/-- A word behind options of the program is the command, and what follows belongs to it. -/
theorem sortArguments_command {spellings : Spellings} {name : String} (hdash : name ≠ "--")
    (hgroup : optionGroup? spellings name = none) {front : List String}
    {options : List (Opt × String)} (rest : List String)
    (h : sortArguments spellings true front = .ok ⟨options, []⟩) :
    sortArguments spellings true (front ++ name :: rest) = .ok ⟨options, name :: rest⟩ := by
  induction hn : front.length using Nat.strongRecOn generalizing front options with
  | ind n ih =>
    cases front with
    | nil =>
      cases h
      rw [List.nil_append, sortArguments, if_neg hdash, hgroup]
      rfl
    | cons argument more =>
      -- An argument that is read by itself stays in front of what is read behind it.
      have hfront {read : Arguments} {left : List String} (hleft : left.length < n)
          (hread : sortArguments spellings true (argument :: more) =
            (sortArguments spellings true left).map read.append) :
          (sortArguments spellings true (left ++ name :: rest)).map read.append =
            .ok ⟨options, name :: rest⟩ := by
        rw [h] at hread
        cases hs : sortArguments spellings true left with
        | error fault =>
          rw [hs] at hread
          cases hread
        | ok a =>
          obtain ⟨given, operands⟩ := a
          rw [hs] at hread
          obtain ⟨rfl, hnil⟩ := Arguments.mk.inj (Except.ok.inj hread)
          obtain ⟨hempty, rfl⟩ := List.append_eq_nil_iff.1 hnil.symm
          rw [ih _ hleft hs rfl]
          simp [Except.map, Arguments.append, hempty]
      have hlen : more.length < n := by
        rw [← hn]
        exact Nat.lt_succ_self _
      rcases sortArguments_cons spellings true argument with
        ⟨fault, hsort⟩ | ⟨read, hsort⟩ | ⟨first, hsort⟩ | ⟨fault, read, hnone, hsort⟩
      · cases (hsort more).symm.trans h
      · rw [List.cons_append, hsort]
        exact hfront hlen (hsort more)
      · obtain ⟨rfl, hnil⟩ := Arguments.mk.inj (Except.ok.inj ((hsort more).symm.trans h))
        obtain ⟨rfl, rfl⟩ := List.append_eq_nil_iff.1 hnil
        rw [List.cons_append, hsort]
        rfl
      · cases more with
        | nil => cases hnone.symm.trans h
        | cons value more =>
          rw [List.cons_append, List.cons_append, hsort]
          exact hfront (Nat.lt_of_succ_lt hlen) (hsort value more)

/-- A command line with a command asks for what the options in front of it ask for, or for what the
arguments behind it do. -/
theorem readSession_command {front : List String} {options : List (Opt × String)}
    (h : sortArguments programSpellings true front = .ok ⟨options, []⟩) (folder : Folder)
    (command : Command) (rest : List String) :
    readSession folder (front ++ command.name :: rest) =
      ((Arguments.early? ⟨options, []⟩).elim (readCommand folder command rest) .ok).map
        (Session.mk (options.any (·.1 = .verbose))) := by
  have hsort : sortArguments programSpellings true (front ++ command.name :: rest) =
      .ok ⟨options, command.name :: rest⟩ := by
    cases command <;> exact sortArguments_command (by decide) rfl rest h
  have hread : (sortArguments programSpellings true (front ++ command.name :: rest)).mapError
      programFault = .ok ⟨options, command.name :: rest⟩ := by
    rw [hsort]
    rfl
  have hearly : Arguments.early? ⟨options, command.name :: rest⟩ =
      Arguments.early? ⟨options, []⟩ := rfl
  have hname : Command.ofName? command.name = some command := by
    cases command <;> rfl
  unfold readSession
  rw [hread]
  simp only [bind, Except.bind, hearly]
  cases Arguments.early? ⟨options, []⟩ with
  | some request => rfl
  | none =>
    simp only [hname]
    cases readCommand folder command rest <;> rfl

end ScoreText
