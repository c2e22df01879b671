/-
  Flags and arguments in any order.

  No flag takes the token behind it, so what a command line asks for depends on its flag
  tokens in their order and on its arguments in theirs, and not on how the two are mixed
  (`parse_of_interleaving`).  The flag `debug` and the arguments behind the first one decide
  what is logged and nothing else: what a plan writes and how it ends are settled by its file,
  its format and whether it watches (`Plan.run_congr`).
-/
import BraceBalance.CommandLine.Run
import BraceBalance.Proofs.Run

set_option autoImplicit false

namespace BraceBalance

/-! ## Lists that are mixed -/

/-- A list that is put together from the elements of two lists, each in its own order. -/
inductive Interleaving {α : Type} : List α → List α → List α → Prop where
  | nil : Interleaving [] [] []
  | left {x : α} {xs ys zs : List α} : Interleaving xs ys zs → Interleaving (x :: xs) ys (x :: zs)
  | right {y : α} {xs ys zs : List α} : Interleaving xs ys zs → Interleaving xs (y :: ys) (y :: zs)

theorem Interleaving.forall_mem {α : Type} {p : α → Prop} {xs ys zs : List α}
    (h : Interleaving xs ys zs) (hxs : ∀ x ∈ xs, p x) (hys : ∀ y ∈ ys, p y) : ∀ z ∈ zs, p z := by
  induction h with
  | nil => exact hxs
  | left _ ih =>
    rw [List.forall_mem_cons] at hxs ⊢
    exact ⟨hxs.1, ih hxs.2 hys⟩
  | right _ ih =>
    rw [List.forall_mem_cons] at hys ⊢
    exact ⟨hys.1, ih hxs hys.2⟩

namespace CommandLine

/-! ## Tokens -/

/-- The token that ends the flags. -/
def separator : Bytes := [dash, dash]

/-- A token that is read as a flag, whether or not it is a good one. -/
structure IsFlagToken (token : Bytes) : Prop where
  starts : token.head? = some dash
  not_dash : token ≠ [dash]
  not_separator : token ≠ separator

/-- A token that is read as an argument. -/
def IsArgument (token : Bytes) : Prop := token.head? ≠ some dash ∨ token = [dash]

/-- What one flag token makes of the settings. -/
def Settings.read (settings : Settings) (token : Bytes) : Except UsageError Settings :=
  if token.tail.head? = some dash then longFlag settings token.tail.tail
  else letterGroup settings token.tail

/-- What flag tokens make of the settings one after the other, up to the first bad one. -/
def Settings.readAll (settings : Settings) (tokens : List Bytes) : Except UsageError Settings :=
  tokens.foldlM Settings.read settings

theorem Settings.read_long (settings : Settings) (body : Bytes) :
    settings.read (dash :: dash :: body) = longFlag settings body := by
  unfold Settings.read
  exact if_pos rfl

theorem Settings.readAll_cons (settings : Settings) (token : Bytes) (tokens : List Bytes) :
    settings.readAll (token :: tokens) =
      match settings.read token with
      | .error error => .error error
      | .ok settings => settings.readAll tokens := by
  unfold readAll
  rw [List.foldlM_cons]
  cases settings.read token <;> rfl

section Parse

variable {token : Bytes} (settings : Settings) (found rest : List Bytes)

theorem parseFrom_argument (h : IsArgument token) :
    parseFrom settings found (token :: rest) = parseFrom settings (token :: found) rest := by
  cases token with
  | nil => rw [parseFrom]
  | cons first body =>
    have hfirst : first ≠ dash ∨ body = [] := by
      rcases h with hhead | hdash
      · exact Or.inl fun heq => hhead (congrArg some heq)
      · exact Or.inr (List.cons.inj hdash).2
    rw [parseFrom, if_pos hfirst]

theorem parseFrom_flag (h : IsFlagToken token) :
    parseFrom settings found (token :: rest) =
      match settings.read token with
      | .error error => .error error
      | .ok settings => parseFrom settings found rest := by
  obtain ⟨hstarts, hdash, hseparator⟩ := h
  cases token with
  | nil => cases hstarts
  | cons first body =>
    rw [List.head?_cons, Option.some.injEq] at hstarts
    subst hstarts
    have hbody : ¬ (dash ≠ dash ∨ body = []) := by
      rintro (hne | rfl)
      · exact hne rfl
      · exact hdash rfl
    have hrest : ¬ body = [dash] := fun heq => hseparator (congrArg (dash :: ·) heq)
    rw [parseFrom, if_neg hbody, if_neg hrest]
    rfl

theorem parseFrom_separator :
    parseFrom settings found (separator :: rest) = .ok ⟨settings, found.reverse ++ rest⟩ := by
  unfold separator
  rw [parseFrom, if_neg (by decide), if_pos rfl]

end Parse

section Mixed

variable {flags arguments tokens : List Bytes}

/-- The arguments are passed over by the flags, and the flags by the arguments. -/
theorem parseFrom_of_interleaving (h : Interleaving flags arguments tokens)
    (hflags : ∀ token ∈ flags, IsFlagToken token)
    (harguments : ∀ token ∈ arguments, IsArgument token) (settings : Settings)
    (found : List Bytes) :
    parseFrom settings found tokens =
      (settings.readAll flags).map (⟨·, found.reverse ++ arguments⟩) := by
  induction h generalizing settings found with
  | nil =>
    rw [parseFrom, List.append_nil]
    rfl
  | left _ ih =>
    rw [List.forall_mem_cons] at hflags
    rw [parseFrom_flag _ _ _ hflags.1, Settings.readAll_cons]
    cases settings.read _ with
    | error error => rfl
    | ok settings => exact ih hflags.2 harguments settings found
  | right _ ih =>
    rw [List.forall_mem_cons] at harguments
    rw [parseFrom_argument _ _ _ harguments.1, ih hflags harguments.2, List.reverse_cons,
      List.append_assoc, List.singleton_append]

theorem parse_of_interleaving (h : Interleaving flags arguments tokens)
    (hflags : ∀ token ∈ flags, IsFlagToken token)
    (harguments : ∀ token ∈ arguments, IsArgument token) :
    parse tokens = (Settings.off.readAll flags).map (⟨·, arguments⟩) :=
  parseFrom_of_interleaving h hflags harguments .off []

theorem parse_separated (hflags : ∀ token ∈ flags, IsFlagToken token) :
    parse (flags ++ separator :: arguments) =
      (Settings.off.readAll flags).map (⟨·, arguments⟩) := by
  unfold parse
  generalize Settings.off = settings
  induction flags generalizing settings with
  | nil =>
    rw [List.nil_append, parseFrom_separator]
    rfl
  | cons token flags ih =>
    rw [List.forall_mem_cons] at hflags
    rw [List.cons_append, parseFrom_flag _ _ _ hflags.1, Settings.readAll_cons]
    cases settings.read token with
    | error error => rfl
    | ok settings => exact ih hflags.2 settings

end Mixed

/-! ## The flag for debugging -/

/-- The name `debug`. -/
def debugName : Bytes := Bytes.ofString "debug"

/-- A token that sets the flag `debug`: `--debug`, or `--debug=` and a truth value. -/
def SetsDebug (token : Bytes) : Prop :=
  token = dash :: dash :: debugName ∨
    ∃ value truth, token = dash :: dash :: (debugName ++ equals :: value) ∧
      truth? value = some truth

namespace Settings

/-- The settings with debugging turned off. -/
def quiet (settings : Settings) : Settings := settings.set .debug false

/-- Two ways to go on that differ at most in whether debugging is on. -/
def Agree (one other : Except UsageError Settings) : Prop := one.map quiet = other.map quiet

theorem quiet_eq_iff {one other : Settings} :
    one.quiet = other.quiet ↔
      one.help = other.help ∧ one.json = other.json ∧ one.watch = other.watch := by
  simp [quiet, set]

theorem quiet_set {one other : Settings} (h : one.quiet = other.quiet) (flag : Flag)
    (value : Bool) : (one.set flag value).quiet = (other.set flag value).quiet := by
  rw [quiet_eq_iff] at h ⊢
  obtain ⟨hhelp, hjson, hwatch⟩ := h
  cases flag <;> simp [set, hhelp, hjson, hwatch]

theorem agree_ok {one other : Settings} (h : one.quiet = other.quiet) :
    Agree (.ok one) (.ok other) :=
  congrArg Except.ok h

/-- Both fail alike, or both succeed. -/
theorem Agree.cases {one other : Except UsageError Settings} (h : Agree one other) :
    (∃ error, one = .error error ∧ other = .error error) ∨
      ∃ settings settings' : Settings, one = .ok settings ∧ other = .ok settings' ∧
        settings.quiet = settings'.quiet := by
  unfold Agree at h
  cases one with
  | error error =>
    cases other with
    | error error' =>
      cases h
      exact Or.inl ⟨error, rfl, rfl⟩
    | ok settings' => cases h
  | ok settings =>
    cases other with
    | error error' => cases h
    | ok settings' => exact Or.inr ⟨settings, settings', rfl, rfl, Except.ok.inj h⟩

theorem agree_setTo {one other : Settings} (h : one.quiet = other.quiet) (flag : Flag)
    (value : Bytes) : Agree (one.setTo flag value) (other.setTo flag value) := by
  unfold setTo
  cases truth? value with
  | none => rfl
  | some value => exact agree_ok (quiet_set h flag value)

theorem agree_longFlag {one other : Settings} (h : one.quiet = other.quiet) (body : Bytes) :
    Agree (longFlag one body) (longFlag other body) := by
  unfold longFlag
  split
  · rfl
  · dsimp only
    split
    · rfl
    · split
      · exact agree_ok (quiet_set h _ true)
      · exact agree_setTo h _ _

theorem agree_letterGroup {one other : Settings} (h : one.quiet = other.quiet) (group : Bytes) :
    Agree (letterGroup one group) (letterGroup other group) := by
  induction group generalizing one other with
  | nil => exact agree_ok h
  | cons letter rest ih =>
    rw [letterGroup, letterGroup]
    split
    · exact agree_ok h
    · split
      · rfl
      · split
        · exact agree_setTo h _ _
        · exact ih (quiet_set h _ true)

theorem agree_read {one other : Settings} (h : one.quiet = other.quiet) (token : Bytes) :
    Agree (one.read token) (other.read token) := by
  unfold read
  split
  · exact agree_longFlag h _
  · exact agree_letterGroup h _

end Settings

theorem SetsDebug.isFlagToken {token : Bytes} (h : SetsDebug token) : IsFlagToken token := by
  rcases h with rfl | ⟨value, truth, rfl, -⟩
  · exact ⟨rfl, by simp, by decide⟩
  · exact ⟨rfl, by simp, by simp [separator]⟩

theorem longFlag_debug (settings : Settings) :
    longFlag settings debugName = .ok (settings.set .debug true) := by
  rfl

theorem longFlag_debug_value (settings : Settings) (value : Bytes) :
    longFlag settings (debugName ++ equals :: value) = settings.setTo .debug value := by
  have hequals : equals ∉ debugName := by decide
  have hname : Flag.ofName? debugName = some .debug := by decide
  obtain ⟨htake, hdrop⟩ := takeWhile_ne_stop hequals value
  have hhead : (debugName ++ equals :: value).head? = debugName.head? := rfl
  unfold longFlag
  simp only [hhead, htake, hdrop, hname]
  exact if_neg (by decide)

theorem SetsDebug.read {token : Bytes} (h : SetsDebug token) (settings : Settings) :
    ∃ truth, settings.read token = .ok (settings.set .debug truth) := by
  rcases h with rfl | ⟨value, truth, rfl, htruth⟩
  · exact ⟨true, by rw [Settings.read_long, longFlag_debug]⟩
  · exact ⟨truth, by rw [Settings.read_long, longFlag_debug_value, Settings.setTo, htruth]⟩

theorem Settings.quiet_set_debug (settings : Settings) (value : Bool) :
    (settings.set .debug value).quiet = settings.quiet := by
  rfl

/-- Further tokens that set `debug` neither hide a bad flag nor set any other one. -/
theorem Settings.agree_readAll {flags debugs more : List Bytes}
    (h : Interleaving flags debugs more) (hdebugs : ∀ token ∈ debugs, SetsDebug token)
    {one other : Settings} (hquiet : one.quiet = other.quiet) :
    Agree (one.readAll more) (other.readAll flags) := by
  induction h generalizing one other with
  | nil => exact agree_ok hquiet
  | @left token flags debugs more _ ih =>
    rw [readAll_cons, readAll_cons]
    -- A bad flag is the same error on both sides and ends both.
    rcases (agree_read hquiet token).cases with
      ⟨error, hone, hother⟩ | ⟨next, next', hone, hother, hnext⟩
    · rw [hone, hother]
      rfl
    · rw [hone, hother]
      exact ih hdebugs hnext
  | @right token flags debugs more _ ih =>
    rw [List.forall_mem_cons] at hdebugs
    obtain ⟨truth, hread⟩ := hdebugs.1.read one
    rw [readAll_cons, hread]
    exact ih hdebugs.2 (by rw [quiet_set_debug, hquiet])

/-! ## What is written -/

/-- Whether watching can start does not depend on the value that its action works on. -/
theorem exists_start_iff {α β : Type} (files : FileSystem) (path : Bytes) (one : α) (other : β) :
    (∃ loop, Watch.start files path one = .ok loop) ↔
      ∃ loop, Watch.start files path other = .ok loop := by
  unfold Watch.start
  dsimp only
  split <;> simp

namespace Plan

/-- The findings are published and, if asked for, watching starts. -/
def Succeeds (plan : Plan) (files : FileSystem) : Prop :=
  (∃ report, (files.publish plan.file plan.format .unbounded).result = .ok report) ∧
    (plan.watch = true → ∃ loop, Watch.start files plan.file () = .ok loop)

/-- A plan writes what publishing its file writes, and its exit code tells whether it
succeeds. -/
theorem run_output (plan : Plan) (files : FileSystem) :
    (plan.run files).stdout =
        (files.publish plan.file plan.format .unbounded).sink.contents ∧
      ((plan.run files).exitCode = 0 ∧ plan.Succeeds files ∨
        (plan.run files).exitCode = 1 ∧ ¬ plan.Succeeds files) := by
  unfold run Monitor.start Monitor.once Console.publish Succeeds
  cases hpublished : (files.publish plan.file plan.format .unbounded).result with
  | error error => cases plan.watch <;> simp [hpublished]
  | ok report =>
    cases hwatch : plan.watch with
    | false => simp [hpublished]
    | true =>
      simp only [hpublished, if_true]
      rw [exists_start_iff files plan.file ()
        (⟨(files.publish plan.file plan.format .unbounded).sink,
          plan.log ++ (files.publish plan.file plan.format .unbounded).log⟩ : Console)]
      cases Watch.start files plan.file _ with
      | error error => simp
      | ok loop => simp

theorem run_congr {plan other : Plan} (hfile : plan.file = other.file)
    (hformat : plan.format = other.format) (hwatch : plan.watch = other.watch)
    (files : FileSystem) :
    (plan.run files).stdout = (other.run files).stdout ∧
      (plan.run files).exitCode = (other.run files).exitCode := by
  have hsucceeds : plan.Succeeds files ↔ other.Succeeds files := by
    unfold Succeeds
    rw [hfile, hformat, hwatch]
  obtain ⟨hstdout, hexit⟩ := plan.run_output files
  obtain ⟨hstdout', hexit'⟩ := other.run_output files
  refine ⟨by rw [hstdout, hstdout', hfile, hformat], ?_⟩
  rcases hexit with ⟨hcode, hdone⟩ | ⟨hcode, hdone⟩
  · rcases hexit' with ⟨hcode', -⟩ | ⟨-, hfailed⟩
    · rw [hcode, hcode']
    · exact absurd (hsucceeds.mp hdone) hfailed
  · rcases hexit' with ⟨-, hdone'⟩ | ⟨hcode', -⟩
    · exact absurd (hsucceeds.mpr hdone') hdone
    · rw [hcode, hcode']

end Plan

theorem chooseFile_fst (arguments : List Bytes) :
    (chooseFile arguments).1 = arguments.head?.getD (Bytes.ofString defaultFile) := by
  unfold chooseFile
  split <;> rfl

/-- Of the settings all but `debug`, and of the arguments the first, decide what is written and
the exit code. -/
theorem run_output_congr {one other : Except UsageError Settings} (h : Settings.Agree one other)
    {arguments others : List Bytes} (hfirst : arguments.head? = others.head?)
    {tokens tokens' : List Bytes} (hparse : parse tokens = one.map (⟨·, arguments⟩))
    (hparse' : parse tokens' = other.map (⟨·, others⟩)) (files : FileSystem) :
    (run tokens files).stdout = (run tokens' files).stdout ∧
      (run tokens files).exitCode = (run tokens' files).exitCode := by
  unfold run
  rw [hparse, hparse']
  rcases h.cases with ⟨error, rfl, rfl⟩ | ⟨settings, settings', rfl, rfl, hquiet⟩
  · exact ⟨rfl, rfl⟩
  · obtain ⟨hhelp, hjson, hwatch⟩ := Settings.quiet_eq_iff.mp hquiet
    simp only [Except.map, hhelp]
    split
    · exact ⟨rfl, rfl⟩
    · refine Plan.run_congr ?_ ?_ hwatch files
      · simp only [Invocation.plan, chooseFile_fst, hfirst]
      · simp only [Invocation.plan, hjson]

/-- A command line of flags, good or bad, and arguments means the same however the two are
mixed, as long as each keeps its order, and also if the arguments follow a separator: the
settings are those that the flags make one after the other, or the first bad flag is the
error.  Further tokens that set `debug`, and arguments behind the first one, change neither
what is written nor the exit code. -/
theorem outcome_of_mixed_tokens {flags arguments : List Bytes}
    (hflags : ∀ token ∈ flags, IsFlagToken token)
    (harguments : ∀ token ∈ arguments, IsArgument token) (files : FileSystem) :
    (∀ tokens, Interleaving flags arguments tokens →
      parse tokens = (Settings.off.readAll flags).map (⟨·, arguments⟩) ∧
        run tokens files = run (flags ++ separator :: arguments) files) ∧
      (∀ debugs more tokens tokens', (∀ token ∈ debugs, SetsDebug token) →
        Interleaving flags debugs more → Interleaving flags arguments tokens →
        Interleaving more arguments tokens' →
          (run tokens' files).stdout = (run tokens files).stdout ∧
            (run tokens' files).exitCode = (run tokens files).exitCode) ∧
      ∀ tokens tokens', Interleaving flags arguments tokens →
        Interleaving flags (arguments.take 1) tokens' →
          (run tokens' files).stdout = (run tokens files).stdout ∧
            (run tokens' files).exitCode = (run tokens files).exitCode := by
  refine ⟨?_, ?_, ?_⟩
  · intro tokens hmixed
    have hparse := parse_of_interleaving hmixed hflags harguments
    refine ⟨hparse, ?_⟩
    unfold run
    rw [hparse, parse_separated hflags]
  · intro debugs more tokens tokens' hdebugs hmore hmixed hmixed'
    have hmoreFlags : ∀ token ∈ more, IsFlagToken token :=
      hmore.forall_mem hflags fun token htoken => (hdebugs token htoken).isFlagToken
    exact run_output_congr (Settings.agree_readAll hmore hdebugs rfl) rfl
      (parse_of_interleaving hmixed' hmoreFlags harguments)
      (parse_of_interleaving hmixed hflags harguments) files
  · intro tokens tokens' hmixed hmixed'
    have hfirst : ∀ token ∈ arguments.take 1, IsArgument token :=
      fun token htoken => harguments token (List.mem_of_mem_take htoken)
    refine run_output_congr (rfl : Settings.Agree _ _) ?_
      (parse_of_interleaving hmixed' hflags hfirst)
      (parse_of_interleaving hmixed hflags harguments) files
    rw [List.head?_take, if_neg Nat.one_ne_zero]

/-- The arguments `f` and `-` around the flag `--json`, with and without `--debug=0`. -/
theorem outcome_of_mixed_tokens_around_flag :
    let json := dash :: dash :: Bytes.ofString "json"
    let quiet := dash :: dash :: (debugName ++ equals :: Bytes.ofString "0")
    let files := (FileSystem.empty []).put [[0x66]] (.file [0x7B])
    (∀ token ∈ [json], IsFlagToken token) ∧ (∀ token ∈ [[0x66], [dash]], IsArgument token) ∧
      SetsDebug quiet ∧
      run [[0x66], json, [dash]] files = run [json, separator, [0x66], [dash]] files ∧
      (run [[0x66], quiet, json, [dash]] files).stdout =
        (run [[0x66], json, [dash]] files).stdout ∧
      (run [json, [0x66]] files).exitCode = (run [[0x66], json, [dash]] files).exitCode := by
  intro json quiet files
  have hflags : ∀ token ∈ [json], IsFlagToken token := by
    intro token htoken
    rw [List.mem_singleton.mp htoken]
    exact ⟨rfl, by decide, by decide⟩
  have harguments : ∀ token ∈ [[0x66], [dash]], IsArgument token := by
    rw [List.forall_mem_cons, List.forall_mem_singleton]
    exact ⟨Or.inl (by decide), Or.inr rfl⟩
  have hquiet : SetsDebug quiet := Or.inr ⟨Bytes.ofString "0", false, rfl, by decide⟩
  have hdebugs : ∀ token ∈ [quiet], SetsDebug token := List.forall_mem_singleton.mpr hquiet
  have hmixed : Interleaving [json] [[0x66], [dash]] [[0x66], json, [dash]] :=
    .right (.left (.right .nil))
  obtain ⟨hsame, hdebug, hfirst⟩ := outcome_of_mixed_tokens hflags harguments files
  exact ⟨hflags, harguments, hquiet, (hsame _ hmixed).2,
    (hdebug [quiet] [quiet, json] _ _ hdebugs (.right (.left .nil)) hmixed
      (.right (.left (.left (.right .nil))))).1,
    (hfirst _ [json, [0x66]] hmixed (.left (.right .nil))).2⟩

end CommandLine

end BraceBalance
