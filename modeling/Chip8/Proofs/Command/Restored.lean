import Mathlib
import Chip8.Command.Play
import Chip8.Proofs.Emulator.Parametric

/-!
# Terminals are restored

A session in a terminal enters raw mode once and leaves it once, with the settings that it found, however it ends
(`terminal_restored`).  For this the system is watched: what is done with the terminal and what is written goes into a
log, and so do the answers that decide whether a session opens the terminal at all (`System.watched`).

What an action adds to the log is said by `Adds`, which goes along with doing one thing after another.  So each part of a
session has one lemma about its part of the log.  An emulator at work only writes, whatever its program does, because its
peripherals only write (`writing`).
-/

namespace Chip8.Command

/-! ### Watching a system -/

/-- An answer of a system, or something that was done to it. -/
inductive SystemEvent
  /-- A file was read, or could not be. -/
  | read (answer : Except FileError (List UInt8))
  /-- There is a graphics library, or there is none. -/
  | graphics (available : Bool)
  /-- There is a terminal, or there is none. -/
  | terminal (present : Bool)
  /-- The settings of the terminal were looked up. -/
  | settings (found : String)
  /-- The terminal entered raw mode. -/
  | raw
  /-- The terminal got settings back. -/
  | restored (settings : String)
  /-- Output was written, to the terminal or wherever output goes. -/
  | output (text : String)
  deriving DecidableEq

/-- Whether an event changes the terminal, looks up its settings, or writes output. -/
def SystemEvent.touches : SystemEvent → Bool
  | .settings _ | .raw | .restored _ | .output _ => true
  | .read _ | .graphics _ | .terminal _ => false

variable {m : Type → Type} [Monad m] {W ε α β : Type}

/-- The same action, whose answer leaves an event in a log. -/
def noted (event : α → ε) (x : m α) : StateT (List ε) m α := do
  let a ← StateT.lift x
  modify (· ++ [event a])
  return a

/-- The same system with a log beside it, the latest event last. -/
def System.watched (sys : System m) : System (StateT (List SystemEvent) m) where
  files := {
    kind := fun path => StateT.lift (sys.files.kind path)
    read := fun path => noted .read (sys.files.read path)
    write := fun path bytes => StateT.lift (sys.files.write path bytes) }
  terminal := {
    isTerminal := noted .terminal sys.terminal.isTerminal
    settings := noted .settings sys.terminal.settings
    setRaw := noted (fun _ => .raw) sys.terminal.setRaw
    restore := fun settings => noted (fun _ => .restored settings) (sys.terminal.restore settings)
    size := StateT.lift sys.terminal.size
    pending := StateT.lift sys.terminal.pending
    write := fun text => noted (fun _ => .output text) (sys.terminal.write text) }
  graphics := {
    isAvailable := noted .graphics sys.graphics.isAvailable
    dispatch := StateT.lift sys.graphics.dispatch
    hasExit := StateT.lift sys.graphics.hasExit
    isHeld := fun c => StateT.lift (sys.graphics.isHeld c)
    size := StateT.lift sys.graphics.size
    call := fun c => StateT.lift (sys.graphics.call c) }
  now := StateT.lift sys.now
  pause p := StateT.lift (sys.pause p)
  seed := StateT.lift sys.seed
  out text := noted (fun _ => .output text) (sys.out text)
  err text := StateT.lift (sys.err text)
  outIsTerminal := StateT.lift sys.outIsTerminal
  errIsTerminal := StateT.lift sys.errIsTerminal

/-! ### What is added to the log -/

/-- What an action answers and adds to a log, whatever is in the log and in the world. -/
def Adds (P : α → List ε → Prop) (x : StateT (List ε) (StateM W) α) : Prop :=
  ∀ log w, ∃ es, (merge x (log, w)).2.1 = log ++ es ∧ P (merge x (log, w)).1 es

def Quiet (x : StateT (List ε) (StateM W) α) : Prop := Adds (fun _ es => es = []) x

section Adds

variable {P : α → List ε → Prop} {Q : β → List ε → Prop} {x : StateT (List ε) (StateM W) α}
  {f : α → StateT (List ε) (StateM W) β}

theorem Adds.pure {a : α} (h : P a []) : Adds P (pure a : StateT (List ε) (StateM W) α) :=
  fun log _ => ⟨[], (List.append_nil log).symm, h⟩

theorem Adds.mono {P' : α → List ε → Prop} (hx : Adds P x) (h : ∀ a es, P a es → P' a es) : Adds P' x := by
  intro log w
  obtain ⟨es, hlog, hP⟩ := hx log w
  exact ⟨es, hlog, h _ es hP⟩

theorem Adds.bind (hx : Adds P x) (hf : ∀ a es, P a es → Adds (fun b es' => Q b (es ++ es')) (f a)) :
    Adds Q (x >>= f) := by
  intro log w
  obtain ⟨es, hlog, hP⟩ := hx log w
  obtain ⟨es', hlog', hQ⟩ := hf _ es hP (log ++ es) (merge x (log, w)).2.2
  have hstate : (merge x (log, w)).2 = (log ++ es, (merge x (log, w)).2.2) := Prod.ext hlog rfl
  refine ⟨es ++ es', ?_, ?_⟩
  · rw [merge_bind, hstate, hlog', List.append_assoc]
  · rwa [merge_bind, hstate]

theorem Quiet.bind (hx : Quiet x) (hf : ∀ a, Adds Q (f a)) : Adds Q (x >>= f) := by
  refine Adds.bind hx ?_
  rintro a _ rfl
  exact hf a

theorem quiet_lift (x : StateM W α) : Quiet (StateT.lift x : StateT (List ε) (StateM W) α) :=
  fun log _ => ⟨[], (List.append_nil log).symm, rfl⟩

theorem noted_bind {event : α → ε} {y : StateM W α} (hf : ∀ a, Adds (fun b es => Q b (event a :: es)) (f a)) :
    Adds Q (noted event y >>= f) := by
  have hnoted : Adds (fun a es => es = [event a]) (noted event y) := fun _ _ => ⟨_, rfl, rfl⟩
  refine Adds.bind hnoted ?_
  rintro a _ rfl
  exact hf a

end Adds

/-! ### The terminal -/

/-- What is done in a world while the system is watched. -/
abbrev Watched (W : Type) : Type → Type := StateT (List SystemEvent) (StateM W)

section Devices

variable {sys : System (StateM W)} {verbose : Bool} {t : Terminal} {attrs : String}

theorem quiet_note (n : Notice) : Quiet ((sys.watched.environment verbose).note n) := by
  unfold System.environment
  dsimp only
  split
  · exact quiet_lift _
  · exact Adds.pure rfl

theorem quiet_tell (text : String) : Quiet (sys.watched.tell text) :=
  Quiet.bind (quiet_lift _) fun _ => quiet_lift _

theorem quiet_fail (label : String) (f : Failure) : Quiet (sys.watched.fail verbose label f) :=
  Quiet.bind (quiet_tell _) fun _ => Adds.pure rfl

theorem start_adds :
    Adds (fun r es => (es = [.terminal false] ∧ ∃ err, r = .error err) ∨
        ∃ attrs t, r = .ok t ∧ t.saved = some attrs ∧
          es = [.terminal true, .settings attrs, .raw, .output (Directive.textOf Terminal.opening)])
      (Terminal.start (sys.watched.environment verbose) sys.watched.terminal true) := by
  refine Quiet.bind (quiet_lift _) fun now => Quiet.bind (quiet_lift _) fun size => ?_
  refine noted_bind fun present => ?_
  cases present with
  | false => exact Adds.pure (.inl ⟨rfl, _, rfl⟩)
  | true =>
    refine noted_bind fun attrs => noted_bind fun _ => noted_bind fun _ => ?_
    exact Quiet.bind (quiet_note _) fun _ => Adds.pure (.inr ⟨attrs, _, rfl, rfl, rfl⟩)

theorem close_adds (hsaved : t.saved = some attrs) :
    Adds (fun _ es => es = [.output (Directive.textOf Terminal.closing), .restored attrs])
      (t.close (sys.watched.environment verbose) sys.watched.terminal) := by
  unfold Terminal.close
  rw [hsaved]
  refine noted_bind fun _ => noted_bind fun _ => ?_
  exact Quiet.bind (quiet_note _) fun _ => Adds.pure rfl

/-- To close a terminal that was closed does nothing. -/
theorem close_closed (env : Environment (Watched W)) (tty : Tty (Watched W)) (s : List SystemEvent × W) :
    (merge (t.close env tty) s).1.close env tty = pure (merge (t.close env tty) s).1 := by
  have hsaved : (merge (t.close env tty) s).1.saved = none := by
    unfold Terminal.close
    split
    case h_1 hsaved => exact hsaved
    case h_2 => rfl
  generalize (merge (t.close env tty) s).1 = closed at hsaved
  unfold Terminal.close
  rw [hsaved]

/-! ### An emulator at a terminal -/

theorem saved_poll (now : Float) (bytes : List UInt8) : (t.poll now bytes).1.saved = t.saved := by
  have hexpire : (t.expire now).saved = t.saved := by
    unfold Terminal.expire
    split <;> rfl
  have hpress : ∀ t : Terminal, (t.press bytes).1.saved = t.saved := by
    intro t
    induction bytes generalizing t with
    | nil => rfl
    | cons b bs ih =>
      unfold Terminal.press
      split
      · rfl
      · split
        · exact ih _
        · exact ih _
  have hboth := (hpress (t.expire now)).trans hexpire
  unfold Terminal.poll
  dsimp only
  split
  · exact hboth
  · split <;> exact hboth

/-- An action at a terminal that only writes, and keeps the settings to go back to.  The other action does not matter. -/
def writing : ActionRel (StateT Terminal (Watched W)) (StateT Terminal (Watched W)) where
  Rel x _ := ∀ t, Adds (fun r es => r.2.saved = t.saved ∧ ∃ texts : List String, es = texts.map .output) (x t)
  pure _ _ := Adds.pure ⟨rfl, [], rfl⟩
  bind := by
    intro α β x _ f _ hx hf t
    refine Adds.bind (f := fun r => f r.1 r.2) (hx t) ?_
    rintro ⟨a, t₁⟩ _ ⟨hsaved, texts, rfl⟩
    refine (hf a t₁).mono ?_
    rintro ⟨b, t₂⟩ _ ⟨hsaved', texts', rfl⟩
    exact ⟨hsaved'.trans hsaved, texts ++ texts', List.map_append.symm⟩

theorem writing_of_quiet {x : Watched W α} (hx : Quiet x) :
    writing.Rel (StateT.lift x) (StateT.lift x) :=
  fun _ => Quiet.bind hx fun _ => Adds.pure ⟨rfl, [], rfl⟩

theorem writing_say (ds : List Directive) :
    writing.Rel (StateT.lift (Terminal.say sys.watched.terminal ds))
      (StateT.lift (Terminal.say sys.watched.terminal ds)) := by
  exact fun _ => noted_bind fun _ => Adds.pure ⟨rfl, [_], rfl⟩

/-- A terminal as peripherals only writes. -/
theorem writing_whole :
    writing.Whole (Terminal.peripherals (sys.watched.environment verbose) sys.watched.terminal)
      (Terminal.peripherals (sys.watched.environment verbose) sys.watched.terminal) where
  poll := by
    refine writing.bind (writing_of_quiet (quiet_lift _)) fun now => ?_
    refine writing.bind (writing_of_quiet (quiet_lift _)) fun bytes => ?_
    exact fun t => Adds.pure ⟨saved_poll now bytes, [], rfl⟩
  keys := fun _ => Adds.pure ⟨rfl, [], rfl⟩
  now := writing_of_quiet (quiet_lift _)
  perform := by
    rintro (f | _ | on | _ | pause | n)
    case frame => exact writing.bind (writing_of_quiet (quiet_lift _)) fun size _ => Adds.pure ⟨rfl, [], rfl⟩
    case drive => exact fun t => writing_say t.picture t
    case tone => exact fun _ => Adds.pure ⟨rfl, [], rfl⟩
    case play =>
      refine writing.bind (x := get) (fun _ => Adds.pure ⟨rfl, [], rfl⟩) fun t => ?_
      split
      · exact writing_say [.bell]
      · exact writing.pure ()
    case pause => exact writing_of_quiet (quiet_lift _)
    case note => exact writing_of_quiet (quiet_note _)

/-- With another audio device, peripherals still do only what they and this device do. -/
theorem attach_whole {R : ActionRel m m} {p : Peripherals m} {speaker : Speaker m} (h : R.Whole p p)
    (hact : ∀ on, R.Rel (speaker.act on) (speaker.act on)) :
    (R.beside Bool).Whole (speaker.attach p) (speaker.attach p) where
  poll := ActionRel.beside_lift h.poll
  keys := ActionRel.beside_lift h.keys
  now := ActionRel.beside_lift h.now
  perform := by
    rintro (f | _ | on | _ | pause | n)
    case tone => exact fun _ => R.pure _
    case play => exact fun on => R.bind (R.pure (on, on)) fun r => ActionRel.beside_lift (hact r.1) r.2
    all_goals exact ActionRel.beside_lift (h.perform _)

/-! ### Parts of a session -/

namespace Play

variable {s : Settings} {e : Emulator}

theorem run_adds (max : Option Int) :
    Adds (fun r es => r.2.saved = t.saved ∧ ∃ texts : List String, es = texts.map .output)
      (e.run (Terminal.peripherals (sys.watched.environment verbose) sys.watched.terminal) max t) :=
  ActionRel.run writing_whole e max t

theorem run_attached_adds {speaker : Speaker (Watched W)} (hspeaker : ∀ on, Quiet (speaker.act on)) (max : Option Int)
    (on : Bool) :
    Adds (fun r es => r.2.saved = t.saved ∧ ∃ texts : List String, es = texts.map .output)
      (e.run ((speaker.lift Terminal).attach
        (Terminal.peripherals (sys.watched.environment verbose) sys.watched.terminal)) max on t) :=
  ActionRel.run (attach_whole writing_whole fun on => writing_of_quiet (hspeaker on)) e max on t

/-- Whatever was opened is closed. -/
theorem playOpened_adds {speaker : Option (Speaker (Watched W))}
    (hspeaker : ∀ sp ∈ speaker, ∀ on, Quiet (sp.act on)) (hsaved : t.saved = some attrs) :
    Adds (fun _ es => ∃ texts : List String,
        es = (texts ++ [Directive.textOf Terminal.closing]).map .output ++ [.restored attrs])
      (playOpened sys.watched (sys.watched.environment verbose) s e speaker t) := by
  cases speaker with
  | none =>
    refine Adds.bind (run_adds s.maxCycles) ?_
    rintro ⟨result, t'⟩ _ ⟨hkept, texts, rfl⟩
    refine Adds.bind (close_adds (hkept.trans hsaved)) ?_
    rintro _ _ rfl
    exact Adds.pure ⟨texts, by simp⟩
  | some speaker =>
    refine Adds.bind (run_attached_adds (hspeaker speaker rfl) s.maxCycles false) ?_
    rintro ⟨⟨result, on⟩, t'⟩ _ ⟨hkept, texts, rfl⟩
    refine Adds.bind (close_adds (hkept.trans hsaved)) ?_
    rintro _ _ rfl
    exact Adds.pure ⟨texts, by simp⟩

theorem nativeSpeaker_adds :
    Adds (fun r es => (es = [.graphics false] ∧ ∃ f, r = .error f) ∨
        es = [.graphics true] ∧ ∃ speaker, r = .ok speaker ∧ ∀ on, Quiet (speaker.act on))
      (nativeSpeaker sys.watched) := by
  refine noted_bind fun available => ?_
  cases available with
  | false => exact Adds.pure (.inl ⟨rfl, _, rfl⟩)
  | true =>
    have hstart : Adds (fun speaker es => es = [] ∧ ∀ on, Quiet (speaker.act on))
        (Speaker.startSine sys.watched.graphics Speaker.pitch) :=
      Quiet.bind (quiet_lift _) fun _ => Adds.pure ⟨rfl, fun _ => quiet_lift _⟩
    refine Adds.bind hstart ?_
    rintro speaker _ ⟨rfl, hspeaker⟩
    exact Adds.pure (.inr ⟨rfl, speaker, rfl, hspeaker⟩)

/-- Raw mode from beginning to end: settings are looked up, raw mode is entered, texts are written, and the settings are
put back. -/
def rawSession (attrs : String) (texts : List String) : List SystemEvent :=
  .settings attrs :: .raw ::
    ((Directive.textOf Terminal.opening :: texts ++ [Directive.textOf Terminal.closing]).map .output ++ [.restored attrs])

theorem touches_of_mem_rawSession {texts : List String} {e : SystemEvent} (h : e ∈ rawSession attrs texts) :
    e.touches := by
  simp only [rawSession, List.mem_cons, List.mem_append, List.mem_map, List.not_mem_nil, or_false] at h
  rcases h with rfl | rfl | ⟨text, -, rfl⟩ | rfl <;> rfl

/-- Attributes are reset, the cursor comes back, and so does the screen that was kept aside. -/
example : Directive.textOf Terminal.closing = "\x1b[0m\x1b[?25h\x1b[?1049l" := by decide

/-- What is asked before the terminal: a tone is synthesized only if there is a graphics library. -/
def beforeTerminal (s : Settings) : List SystemEvent :=
  if wantsNativeAudio s.gui s.nativeAudio s.bell then [.graphics true] else []

theorem eq_of_mem_beforeTerminal {e : SystemEvent} (h : e ∈ beforeTerminal s) : e = .graphics true := by
  unfold beforeTerminal at h
  split at h
  · exact List.mem_singleton.mp h
  · exact nomatch h

theorem filter_beforeTerminal (s : Settings) : (beforeTerminal s).filter SystemEvent.touches = [] := by
  refine List.filter_eq_nil_iff.mpr fun e he => ?_
  rw [eq_of_mem_beforeTerminal he]
  exact Bool.false_ne_true

/-- What a session does when its program is loaded. -/
inductive AtTerminal (s : Settings) : List SystemEvent → Prop
  | noAudio : AtTerminal s [.graphics false]
  | noTerminal : AtTerminal s (beforeTerminal s ++ [.terminal false])
  | opened (attrs : String) (texts : List String) :
      AtTerminal s (beforeTerminal s ++ .terminal true :: rawSession attrs texts)

/-- With a synthesized tone and without one, the terminal is opened in the same way. -/
theorem open_adds (s : Settings) (e : Emulator) (speaker : Option (Speaker (Watched W))) {asked : List SystemEvent}
    {f : Except Error Terminal → Watched W Played} (hasked : beforeTerminal s = asked)
    (hspeaker : ∀ sp ∈ speaker, ∀ on, Quiet (sp.act on)) (hrefused : ∀ err, ∃ r, f (.error err) = pure r)
    (hopened : ∀ t, f (.ok t) = playOpened sys.watched (sys.watched.environment verbose) s e speaker t) :
    Adds (fun _ es => AtTerminal s (asked ++ es))
      (Terminal.start (sys.watched.environment verbose) sys.watched.terminal true >>= f) := by
  subst hasked
  refine Adds.bind start_adds ?_
  rintro _ _ (⟨rfl, err, rfl⟩ | ⟨attrs, t, rfl, hsaved, rfl⟩)
  · obtain ⟨r, hr⟩ := hrefused err
    rw [hr]
    exact Adds.pure .noTerminal
  · rw [hopened]
    refine (playOpened_adds hspeaker hsaved).mono ?_
    rintro _ _ ⟨texts, rfl⟩
    exact .opened attrs texts

theorem playTerminal_adds :
    Adds (fun _ es => AtTerminal s es) (playTerminal sys.watched (sys.watched.environment verbose) s e) := by
  unfold playTerminal
  split
  case isTrue hnative =>
    refine Adds.bind nativeSpeaker_adds ?_
    rintro _ _ (⟨rfl, f, rfl⟩ | ⟨rfl, speaker, rfl, hspeaker⟩)
    · exact Adds.pure .noAudio
    · have hsome : ∀ sp ∈ some speaker, ∀ on, Quiet (sp.act on) := by
        intro sp hsp
        obtain rfl := Option.some.inj hsp
        exact hspeaker
      simp only [pure_bind, Except.map]
      refine open_adds s e (some speaker) (if_pos hnative) hsome ?_ ?_
      · exact fun _ => ⟨_, rfl⟩
      · exact fun _ => rfl
  case isFalse hnone =>
    simp only [pure_bind]
    refine open_adds s e none (if_neg hnone) ?_ ?_ ?_
    · exact nofun
    · exact fun _ => ⟨_, rfl⟩
    · exact fun _ => rfl

/-- Whether what was read is a program that fits. -/
def Fits (answer : Except FileError (List UInt8)) : Prop :=
  ∃ program, answer = .ok program ∧ program.length ≤ Memory.programCapacity

/-- What a session does, from its first event to its last. -/
inductive Session (s : Settings) : List SystemEvent → Prop
  | badRate {err} (hrate : s.config.check = .error err) : Session s []
  | rejected {answer} (hfits : ¬ Fits answer) : Session s [.read answer]
  | loaded {config answer events} (hrate : s.config.check = .ok config) (hfits : Fits answer)
      (hevents : AtTerminal s events) : Session s (.read answer :: events)

section Loading

variable {silent : Peripherals (Watched W)} (hsilent : ∀ n, Quiet (silent.note n))
include hsilent

theorem load_adds (program : List UInt8) :
    Adds (fun r es => es = [] ∧ (r.2 = .ok () ↔ program.length ≤ Memory.programCapacity)) (e.load silent program) := by
  unfold Emulator.load Machine.load Memory.load?
  by_cases hsize : program.length ≤ Memory.programCapacity
  · rw [if_pos hsize]
    exact Quiet.bind (hsilent _) fun _ => Adds.pure ⟨rfl, iff_of_true rfl hsize⟩
  · rw [if_neg hsize]
    exact Adds.pure ⟨rfl, iff_of_false nofun hsize⟩

/-- A program is loaded if it can be read and fits. -/
theorem loadFile_adds (path : String) :
    Adds (fun r es => ∃ answer, es = [.read answer] ∧ (r.2 = .ok () ↔ Fits answer))
      (e.loadFile silent sys.watched.files.read path) := by
  refine noted_bind fun answer => ?_
  cases answer with
  | error err =>
    have hfits : ¬ Fits (.error err) := nofun
    cases err <;> exact Adds.pure ⟨_, rfl, iff_of_false nofun hfits⟩
  | ok program =>
    have hfits : Fits (.ok program) ↔ program.length ≤ Memory.programCapacity := by simp [Fits]
    refine Adds.bind (load_adds hsilent program) ?_
    rintro ⟨e', out⟩ _ ⟨rfl, hloaded⟩
    rw [← hfits] at hloaded
    cases out with
    | error err => exact Adds.pure ⟨_, rfl, iff_of_false nofun fun h => nomatch hloaded.mpr h⟩
    | ok =>
      refine Quiet.bind (hsilent _) fun _ => ?_
      exact Adds.pure ⟨_, rfl, iff_of_true rfl (hloaded.mp rfl)⟩

end Loading

theorem play_adds {config : Config} (hrate : s.config.check = .ok config) (hgui : s.gui = false)
    (hheadless : s.headless = false) (path : String) :
    Adds (fun _ es => Session s es) (play sys.watched (sys.watched.environment verbose) s path e) := by
  refine Adds.bind (loadFile_adds ?_ path) ?_
  · exact fun n => quiet_note n
  rintro ⟨e', out⟩ _ ⟨answer, rfl, hloaded⟩
  cases out with
  | error err => exact Adds.pure (.rejected fun hfits => nomatch hloaded.mpr hfits)
  | ok =>
    rw [hheadless, hgui]
    exact playTerminal_adds.mono fun _ _ => .loaded hrate (hloaded.mp rfl)

/-- The timers always go at a rate that there is. -/
theorem create_of_check {config : Config} (hrate : s.config.check = .ok config) (seed : Int) (now : Float) :
    ∃ e, Emulator.create config seed now = .ok e := by
  have htimer : config.timer = .real 60.0 := by
    unfold Config.check at hrate
    split at hrate
    · exact nomatch hrate
    · split at hrate
      · exact nomatch hrate
      · obtain rfl := Except.ok.inj hrate
        rfl
  have hpositive : (Rate.real 60.0).isNotPositive = false := by decide +kernel
  unfold Emulator.create Scheduler.create
  rw [htimer, hpositive]
  exact ⟨_, rfl⟩

theorem perform_adds (hgui : s.gui = false) (hheadless : s.headless = false) (path : String) :
    Adds (fun _ es => Session s es) (perform sys.watched s path) := by
  refine Quiet.bind (quiet_lift _) fun seed => Quiet.bind (quiet_lift _) fun now => ?_
  cases hcheck : s.config.check with
  | error err => exact Quiet.bind (quiet_fail _ _) fun _ => Adds.pure (.badRate hcheck)
  | ok config =>
    obtain ⟨e, he⟩ := create_of_check hcheck seed now
    simp only [Except.bind, he]
    refine Adds.bind (play_adds hcheck hgui hheadless path) ?_
    rintro ⟨e', out⟩ es hsession
    -- all that is said afterwards goes to the stream for messages
    have hover : Session s (es ++ []) := by rwa [List.append_nil]
    cases out with
    | error f => exact Quiet.bind (quiet_fail _ _) fun _ => Adds.pure hover
    | ok executed =>
      dsimp only
      split
      · exact Quiet.bind (quiet_tell _) fun _ => Quiet.bind (quiet_tell _) fun _ => Adds.pure hover
      · exact Adds.pure hover

/-! ### The session as a whole -/

/-- Why a session does not come to open the terminal. -/
inductive Refused (s : Settings) (events : List SystemEvent) : Prop
  /-- There is no such instruction rate. -/
  | badRate {err} (hrate : s.config.check = .error err)
  /-- The program cannot be read, or it does not fit. -/
  | rejected {answer} (hread : .read answer ∈ events) (hfits : ¬ Fits answer)
  | noAudio (hgraphics : .graphics false ∈ events)
  | noTerminal (hterminal : .terminal false ∈ events)

theorem not_refused_of_opened {config : Config} {answer : Except FileError (List UInt8)}
    (hrate : s.config.check = .ok config) (hfits : Fits answer) (texts : List String) :
    ¬ Refused s (.read answer :: (beforeTerminal s ++ .terminal true :: rawSession attrs texts)) := by
  -- no event of raw mode tells of a refusal, so that only those in front are left
  have hfront : ∀ e : SystemEvent, e.touches = false →
      e ∈ SystemEvent.read answer :: (beforeTerminal s ++ .terminal true :: rawSession attrs texts) →
      e = .read answer ∨ e = .graphics true ∨ e = .terminal true := by
    intro e he hmem
    have hraw : e ∉ rawSession attrs texts := fun h => absurd (touches_of_mem_rawSession h) (by simp [he])
    simp only [List.mem_cons, List.mem_append, hraw, or_false] at hmem
    exact hmem.imp_right (Or.imp_left eq_of_mem_beforeTerminal)
  rintro (hrate' | ⟨hread, hrejected⟩ | hgraphics | hterminal)
  · exact nomatch hrate.symm.trans hrate'
  · rcases hfront _ rfl hread with h | h | h
    · obtain rfl := SystemEvent.read.inj h
      exact hrejected hfits
    · exact nomatch h
    · exact nomatch h
  · rcases hfront _ rfl hgraphics with h | h | h <;> exact nomatch h
  · rcases hfront _ rfl hterminal with h | h | h <;> exact nomatch h

/-- **The terminal is restored.**  Whatever the program, the keys, the options and the system are, and however the run
ends: if the session is refused, nothing is done to the terminal and no output is written.  If not, a program that fits was
read, and there was a terminal when it was asked for; only then the settings are looked up, once, raw mode is entered once,
and the last thing of all is that these settings are put back, once, right after the text that ends the work.  And to close
a terminal again does nothing. -/
theorem terminal_restored (sys : System (StateM W)) (s : Settings) (path : String) (w : W)
    (hgui : s.gui = false) (hheadless : s.headless = false) :
    let events := (merge (perform sys.watched s path) ([], w)).2.1
    let env := sys.watched.environment s.isVerbose
    let tty := sys.watched.terminal
    (Refused s events ∧ events.filter SystemEvent.touches = [] ∨
      ¬ Refused s events ∧ ∃ answer attrs texts, Fits answer ∧
        events = .read answer :: (beforeTerminal s ++ .terminal true :: rawSession attrs texts) ∧
        events.filter SystemEvent.touches = rawSession attrs texts) ∧
    ∀ (t : Terminal) (state : List SystemEvent × W),
      (merge (t.close env tty) state).1.close env tty = pure (merge (t.close env tty) state).1 := by
  intro events env tty
  refine ⟨?_, fun t state => close_closed env tty state⟩
  obtain ⟨es, hevents, hsession⟩ : ∃ es, events = [] ++ es ∧ Session s es := perform_adds hgui hheadless path [] w
  rw [hevents, List.nil_append]
  cases hsession with
  | badRate hrate => exact .inl ⟨.badRate hrate, rfl⟩
  | rejected hfits => exact .inl ⟨.rejected (List.mem_singleton_self _) hfits, rfl⟩
  | loaded hrate hfits hterminal =>
    cases hterminal with
    | noAudio => exact .inl ⟨.noAudio (by simp), rfl⟩
    | noTerminal =>
      refine .inl ⟨.noTerminal (by simp), ?_⟩
      rw [List.filter_cons_of_neg Bool.false_ne_true, List.filter_append, filter_beforeTerminal]
      rfl
    | opened attrs texts =>
      have hall : (rawSession attrs texts).filter SystemEvent.touches = rawSession attrs texts :=
        List.filter_eq_self.mpr fun _ => touches_of_mem_rawSession
      refine .inr ⟨not_refused_of_opened hrate hfits texts, _, attrs, texts, hfits, rfl, ?_⟩
      rw [List.filter_cons_of_neg Bool.false_ne_true, List.filter_append, filter_beforeTerminal]
      exact hall

/-- A system that always answers the same: one program in every file, and at each poll of its terminal the same bytes. -/
def still (program bytes : List UInt8) : System (StateM Unit) where
  files := {
    kind := fun _ => pure (.ok .file)
    read := fun _ => pure (.ok program)
    write := fun _ _ => pure (.ok ()) }
  terminal := {
    isTerminal := pure true
    settings := pure "cooked"
    setRaw := pure ()
    restore := fun _ => pure ()
    size := pure (80, 40)
    pending := pure bytes
    write := fun _ => pure () }
  graphics := {
    isAvailable := pure false
    dispatch := pure ()
    hasExit := pure false
    isHeld := fun _ => pure false
    size := pure (640, 320)
    call := fun _ => pure () }
  now := pure 0.0
  pause _ := pure ()
  seed := pure 0
  out _ := pure ()
  err _ := pure ()
  outIsTerminal := pure true
  errIsTerminal := pure true

/-- A program that returns from nowhere: the command fails, and the terminal is restored. -/
theorem terminal_restored_fault :
    let answer := merge (perform (still [0x00, 0xEE] []).watched {} "pong.ch8") ([], ())
    ({} : Settings).gui = false ∧ ({} : Settings).headless = false ∧ answer.1.1 = ⟨1, false⟩ ∧
      ¬ Refused {} answer.2.1 ∧ answer.2.1 = .read (.ok [0x00, 0xEE]) :: .terminal true :: rawSession "cooked" [] := by
  intro answer
  have hlog : answer.2.1 = .read (.ok [0x00, 0xEE]) :: .terminal true :: rawSession "cooked" [] := by decide +kernel
  have hfailed : answer.1.1 = ⟨1, false⟩ := by decide +kernel
  obtain ⟨⟨-, hnothing⟩ | ⟨hopened, -⟩, -⟩ := terminal_restored (still [0x00, 0xEE] []) {} "pong.ch8" () rfl rfl
  · exact absurd ((congrArg (List.filter SystemEvent.touches) hlog).symm.trans hnothing) (by decide)
  · exact ⟨rfl, rfl, hfailed, hopened, hlog⟩

end Play

end Devices

end Chip8.Command
