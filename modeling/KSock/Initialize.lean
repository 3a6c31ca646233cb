import KSock.Lib.Run
import KSock.Wsk
import Mathlib.Data.Finset.Card
/-!
# `KsInitialize` and `KsDestroy`

The driver registers as a client of WSK and captures the provider's NPI, both
through the variable `WskRegistration`, and undoes both in the end. What the
system's functions answer is the environment's choice.

`KsInitialize` reports success on a version of Windows it does not support: the
severity in its status has not been shifted into place. If the capture fails the
registration stays.
-/
open KSockLib

namespace KSock

def STATUS_SEVERITY_ERROR : NTSTATUS := 0x3

def STATUS_UNSUPPORTED_WINDOWS_VERSION : NTSTATUS := STATUS_SEVERITY_ERROR ||| (1 <<< 29) ||| (1 <<< 16) ||| 1

theorem ntSuccess_unsupported : ntSuccess STATUS_UNSUPPORTED_WINDOWS_VERSION = true := by decide

def VER_NT_WORKSTATION : UInt8 := 1

/-- The fields of `OSVERSIONINFOEXW` the code looks at. -/
structure OSVERSIONINFOEXW where
  wProductType : UInt8
  dwMajorVersion : UInt32
  dwMinorVersion : UInt32
  deriving DecidableEq, Repr

/-- What the three functions under a `KsInitialize` return. -/
structure Answers where
  rtlGetVersion : NTSTATUS × OSVERSIONINFOEXW
  wskRegister : NTSTATUS
  wskCaptureProviderNPI : NTSTATUS
  deriving DecidableEq, Repr

/-- The client's registrations, numbered in the order they were made, those with
a captured NPI, and the one the variable `WskRegistration` is. `reported` counts
the successes of `KsInitialize`; `released` and `deregistered` are the
registrations that the functions of `KsDestroy` were called on. -/
structure Client where
  WskRegistration : Nat
  registered : Finset Nat
  captured : Finset Nat
  made : Nat
  reported : Nat
  released : List Nat
  deregistered : List Nat
  deriving DecidableEq

namespace Client

/-- Before the first call. -/
def init : Client := ⟨0, ∅, ∅, 0, 0, [], []⟩

def wskRegister (c : Client) (Status : NTSTATUS) : NTSTATUS × Client :=
  if ntSuccess Status then
    (Status, { c with
      WskRegistration := c.made + 1, registered := insert (c.made + 1) c.registered, made := c.made + 1 })
  else (Status, c)

def wskCaptureProviderNPI (c : Client) (Status : NTSTATUS) : NTSTATUS × Client :=
  if ntSuccess Status then (Status, { c with captured := insert c.WskRegistration c.captured }) else (Status, c)

def wskReleaseProviderNPI (c : Client) : Client :=
  { c with captured := c.captured.erase c.WskRegistration, released := c.released ++ [c.WskRegistration] }

def wskDeregister (c : Client) : Client :=
  { c with registered := c.registered.erase c.WskRegistration, deregistered := c.deregistered ++ [c.WskRegistration] }

/-! ## The functions -/

def ksInitialize (c : Client) (answers : Answers) : NTSTATUS × Client :=
  let (Status, OsVersionInfo) := answers.rtlGetVersion
  if !ntSuccess Status then (Status, c) else
  if OsVersionInfo.wProductType ≠ VER_NT_WORKSTATION ∨ OsVersionInfo.dwMajorVersion ≠ 10 ∨
      OsVersionInfo.dwMinorVersion ≠ 0 then
    (STATUS_UNSUPPORTED_WINDOWS_VERSION, c)
  else
    let (Status, c) := c.wskRegister answers.wskRegister
    if !ntSuccess Status then (Status, c) else
    c.wskCaptureProviderNPI answers.wskCaptureProviderNPI

def ksDestroy (c : Client) : Client := c.wskReleaseProviderNPI.wskDeregister

end Client

/-- The versions of Windows that are supported. -/
def OSVERSIONINFOEXW.Supported (v : OSVERSIONINFOEXW) : Prop :=
  v.wProductType = VER_NT_WORKSTATION ∧ v.dwMajorVersion = 10 ∧ v.dwMinorVersion = 0

/-- The versions and statuses with which a first `KsInitialize` does what it reports. -/
def Answers.Agree (answers : Answers) : Prop :=
  ntSuccess answers.rtlGetVersion.1 = false ∨
    (answers.rtlGetVersion.2.Supported ∧
      (ntSuccess answers.wskRegister = false ∨ ntSuccess answers.wskCaptureProviderNPI = true))

namespace Client

/-- The variable is that of a registration with a captured NPI. -/
def Usable (c : Client) : Prop := c.WskRegistration ∈ c.registered ∧ c.WskRegistration ∈ c.captured

/-- The calls of a driver. It destroys what was reported to be initialised, once
for each report. -/
inductive Event where
  | ksInitialize (answers : Answers)
  | ksDestroy
  deriving DecidableEq, Repr

def step (c : Client) : Event → Option Client
  | .ksInitialize answers =>
    let (Status, c) := c.ksInitialize answers
    some (if ntSuccess Status then { c with reported := c.reported + 1 } else c)
  | .ksDestroy => if c.released.length < c.reported then some c.ksDestroy else none

/-- `KsInitialize` makes a registration with a captured NPI if it succeeds and
none otherwise, and `KsDestroy` can find each; `KsDestroy` is called on such a
registration. -/
def Sound (c : Client) : Event → Prop
  | .ksInitialize answers =>
    let (Status, c') := c.ksInitialize answers
    (ntSuccess Status = true → ∃ id ∉ c.registered,
      c'.registered = insert id c.registered ∧ c'.captured = insert id c.captured) ∧
    (ntSuccess Status = false → c'.registered = c.registered ∧ c'.captured = c.captured) ∧
    ∀ id ∈ c'.registered, id = c'.WskRegistration
  | .ksDestroy => c.released.length < c.reported → c.Usable

/-- There is no version, or a supported one and then either no registration or a
capture, with nothing registered before. -/
def Meets (c : Client) : Event → Prop
  | .ksInitialize answers =>
    ntSuccess answers.rtlGetVersion.1 = false ∨
      (answers.rtlGetVersion.2.Supported ∧ (ntSuccess answers.wskRegister = false ∨
        (ntSuccess answers.wskCaptureProviderNPI = true ∧ c.registered = ∅)))
  | .ksDestroy => True

/-! ## One call -/

/-- The four ways of `KsInitialize`. -/
inductive Goes (c : Client) (answers : Answers) : NTSTATUS → Client → Prop where
  | noVersion (failed : ntSuccess answers.rtlGetVersion.1 = false) : Goes c answers answers.rtlGetVersion.1 c
  | unsupported (version : ntSuccess answers.rtlGetVersion.1 = true)
      (unsupported : ¬answers.rtlGetVersion.2.Supported) : Goes c answers STATUS_UNSUPPORTED_WINDOWS_VERSION c
  | notRegistered (version : ntSuccess answers.rtlGetVersion.1 = true)
      (supported : answers.rtlGetVersion.2.Supported) (failed : ntSuccess answers.wskRegister = false) :
      Goes c answers answers.wskRegister c
  | registered (version : ntSuccess answers.rtlGetVersion.1 = true) (supported : answers.rtlGetVersion.2.Supported)
      (registers : ntSuccess answers.wskRegister = true) :
      Goes c answers answers.wskCaptureProviderNPI
        { c with
          WskRegistration := c.made + 1
          registered := insert (c.made + 1) c.registered
          made := c.made + 1
          captured := if ntSuccess answers.wskCaptureProviderNPI then insert (c.made + 1) c.captured else c.captured }

theorem ksInitialize_goes (c : Client) (answers : Answers) :
    Goes c answers (c.ksInitialize answers).1 (c.ksInitialize answers).2 := by
  unfold ksInitialize
  cases hversion : ntSuccess answers.rtlGetVersion.1 with
  | false =>
    simp only [hversion, Bool.not_false, if_true]
    exact .noVersion hversion
  | true =>
    simp only [hversion, Bool.not_true, Bool.false_eq_true, if_false]
    by_cases hsupported : answers.rtlGetVersion.2.Supported
    · have hguard : ¬(answers.rtlGetVersion.2.wProductType ≠ VER_NT_WORKSTATION ∨
          answers.rtlGetVersion.2.dwMajorVersion ≠ 10 ∨ answers.rtlGetVersion.2.dwMinorVersion ≠ 0) := by
        obtain ⟨hproduct, hmajor, hminor⟩ := hsupported
        simp [hproduct, hmajor, hminor]
      rw [if_neg hguard, wskRegister]
      cases hregister : ntSuccess answers.wskRegister with
      | false =>
        simp only [hregister, Bool.false_eq_true, if_false, Bool.not_false, if_true]
        exact .notRegistered hversion hsupported hregister
      | true =>
        have hgoes := Goes.registered (c := c) hversion hsupported hregister
        simp only [hregister, if_true, Bool.not_true, Bool.false_eq_true, if_false]
        unfold wskCaptureProviderNPI
        cases hcapture : ntSuccess answers.wskCaptureProviderNPI with
        | false => simpa [hcapture] using hgoes
        | true => simpa [hcapture] using hgoes
    · have hguard : answers.rtlGetVersion.2.wProductType ≠ VER_NT_WORKSTATION ∨
          answers.rtlGetVersion.2.dwMajorVersion ≠ 10 ∨ answers.rtlGetVersion.2.dwMinorVersion ≠ 0 := by
        unfold OSVERSIONINFOEXW.Supported at hsupported
        tauto
      rw [if_pos hguard]
      exact .unsupported hversion hsupported

/-- With nothing registered before, `KsInitialize` succeeds exactly if it leaves a
usable registration, and leaves nothing if it fails, exactly if the answers agree. -/
theorem ksInitialize_tells_iff {c : Client} (hregistered : c.registered = ∅) (hcaptured : c.captured = ∅)
    (answers : Answers) :
    ((ntSuccess (c.ksInitialize answers).1 = true ↔ (c.ksInitialize answers).2.Usable) ∧
      (ntSuccess (c.ksInitialize answers).1 = false →
        (c.ksInitialize answers).2.registered = ∅ ∧ (c.ksInitialize answers).2.captured = ∅)) ↔ answers.Agree := by
  have hunusable : ¬c.Usable := by simp [Usable, hregistered]
  have hgoes := ksInitialize_goes c answers
  generalize (c.ksInitialize answers).1 = Status at hgoes ⊢
  generalize (c.ksInitialize answers).2 = c' at hgoes ⊢
  unfold Answers.Agree
  cases hgoes with
  | noVersion hfailed => simp [hfailed, hunusable, hregistered, hcaptured]
  | unsupported hversion hunsupported => simp [hversion, hunsupported, ntSuccess_unsupported, hunusable]
  | notRegistered hversion hsupported hfailed =>
    simp [hsupported, hfailed, hunusable, hregistered, hcaptured]
  | registered hversion hsupported hregisters =>
    cases hcapture : ntSuccess answers.wskCaptureProviderNPI with
    | false => simp [hversion, hregisters, hregistered, Usable, hcaptured]
    | true => simp [hsupported, Usable]

/-! ## Runs -/

/-- What is registered is captured, is in the variable and was not released, and
there is one for each report that was not yet destroyed. -/
structure Tidy (c : Client) : Prop where
  captured : c.captured = c.registered
  only : ∀ id ∈ c.registered, id = c.WskRegistration
  le_made : ∀ id ∈ c.registered, id ≤ c.made
  released_le : ∀ id ∈ c.released, id ≤ c.made
  not_released : ∀ id ∈ c.released, id ∉ c.registered
  nodup : c.released.Nodup
  deregistered : c.deregistered = c.released
  reported : c.reported = c.released.length + c.registered.card

theorem Tidy.init : Tidy init := ⟨rfl, by simp [Client.init], by simp [Client.init], by simp [Client.init],
  by simp [Client.init], List.nodup_nil, rfl, rfl⟩

variable {c c' : Client}

/-- A registration to be destroyed is the one in the variable. -/
theorem Tidy.usable (h : Tidy c) (howed : c.released.length < c.reported) : c.Usable := by
  have hcard : 0 < c.registered.card := by
    have := h.reported
    omega
  obtain ⟨id, hid⟩ := Finset.card_pos.1 hcard
  have hmem : c.WskRegistration ∈ c.registered := h.only id hid ▸ hid
  refine ⟨hmem, ?_⟩
  rw [h.captured]
  exact hmem

theorem Tidy.made_not_mem (h : Tidy c) : c.made + 1 ∉ c.registered := by
  intro hmem
  have := h.le_made _ hmem
  omega

/-- A call is sound exactly if it meets the condition. -/
theorem Tidy.sound_iff (h : Tidy c) (ev : Event) : Sound c ev ↔ Meets c ev := by
  cases ev with
  | ksDestroy => exact iff_of_true h.usable trivial
  | ksInitialize answers =>
    have hgoes := ksInitialize_goes c answers
    unfold Sound Meets
    dsimp only
    generalize (c.ksInitialize answers).1 = Status at hgoes ⊢
    generalize (c.ksInitialize answers).2 = c' at hgoes ⊢
    cases hgoes with
    | noVersion hfailed =>
      refine iff_of_true ⟨?_, fun _ => ⟨rfl, rfl⟩, h.only⟩ (.inl hfailed)
      intro hok
      rw [hok] at hfailed
      cases hfailed
    | unsupported hversion hunsupported =>
      refine iff_of_false ?_ ?_
      · -- a success without a new registration
        rintro ⟨hsuccess, -⟩
        obtain ⟨id, hnew, hregistered, -⟩ := hsuccess ntSuccess_unsupported
        exact hnew (hregistered ▸ Finset.mem_insert_self id _)
      · rw [hversion]
        simp [hunsupported]
    | notRegistered hversion hsupported hfailed =>
      refine iff_of_true ⟨?_, fun _ => ⟨rfl, rfl⟩, h.only⟩ (.inr ⟨hsupported, .inl hfailed⟩)
      intro hok
      rw [hok] at hfailed
      cases hfailed
    | registered hversion hsupported hregisters =>
      have hmeets : (ntSuccess answers.rtlGetVersion.1 = false ∨
          (answers.rtlGetVersion.2.Supported ∧ (ntSuccess answers.wskRegister = false ∨
            (ntSuccess answers.wskCaptureProviderNPI = true ∧ c.registered = ∅)))) ↔
          ntSuccess answers.wskCaptureProviderNPI = true ∧ c.registered = ∅ := by
        simp [hversion, hsupported, hregisters]
      rw [hmeets]
      cases hcapture : ntSuccess answers.wskCaptureProviderNPI with
      | false =>
        -- the registration stays
        refine iff_of_false ?_ (by simp)
        rintro ⟨-, hfailure, -⟩
        exact h.made_not_mem ((hfailure rfl).1 ▸ Finset.mem_insert_self _ _)
      | true =>
        constructor
        · rintro ⟨-, -, honly⟩
          refine ⟨rfl, Finset.eq_empty_of_forall_notMem ?_⟩
          intro id hid
          obtain rfl : id = c.made + 1 := honly id (Finset.mem_insert_of_mem hid)
          exact h.made_not_mem hid
        · rintro ⟨-, hempty⟩
          refine ⟨fun _ => ⟨c.made + 1, h.made_not_mem, rfl, rfl⟩, by simp, ?_⟩
          intro id hid
          simpa [hempty] using hid

/-- `KsDestroy` gives the one registration back. -/
theorem Tidy.ksDestroy (h : Tidy c) (howed : c.released.length < c.reported) : Tidy c.ksDestroy := by
  have husable := h.usable howed
  have hgone : c.ksDestroy.registered = ∅ := by
    apply Finset.eq_empty_of_forall_notMem
    intro id hid
    obtain ⟨hne, hid⟩ := Finset.mem_erase.1 hid
    exact hne (h.only id hid)
  have hcard : c.registered.card = 1 := by
    rw [← Finset.card_erase_add_one husable.1]
    exact congrArg (fun s => s.card + 1) hgone
  constructor
  case captured =>
    change c.captured.erase _ = c.registered.erase _
    rw [h.captured]
    rfl
  case only | le_made | not_released => simp [hgone]
  case released_le =>
    intro id hid
    rcases List.mem_append.1 hid with hid | hid
    · exact h.released_le id hid
    · rw [List.mem_singleton.1 hid]
      exact h.le_made _ husable.1
  case nodup =>
    change (c.released ++ [c.WskRegistration]).Nodup
    rw [← List.concat_eq_append]
    apply h.nodup.concat
    intro hid
    exact h.not_released _ hid husable.1
  case deregistered =>
    change c.deregistered ++ _ = c.released ++ _
    rw [h.deregistered]
    rfl
  case reported =>
    rw [hgone]
    change c.reported = (c.released ++ [c.WskRegistration]).length + 0
    rw [h.reported, hcard, List.length_append]
    rfl

/-- A new registration, where there was none. -/
theorem Tidy.acquire (h : Tidy c) (hempty : c.registered = ∅) :
    Tidy { c with
      WskRegistration := c.made + 1
      registered := {c.made + 1}
      captured := {c.made + 1}
      made := c.made + 1
      reported := c.reported + 1 } := by
  have hreported : c.reported = c.released.length := by
    have := h.reported
    rwa [hempty, Finset.card_empty] at this
  constructor
  case captured => rfl
  case only | le_made => simp
  case released_le =>
    intro id hid
    exact Nat.le_succ_of_le (h.released_le id hid)
  case not_released =>
    intro id hid hmem
    have hle := h.released_le id hid
    rw [Finset.mem_singleton.1 hmem] at hle
    omega
  case nodup => exact h.nodup
  case deregistered => exact h.deregistered
  case reported => simp [hreported]

/-- A step that meets the condition leaves things tidy. -/
theorem Tidy.step (h : Tidy c) {ev : Event} (hmeets : Meets c ev) (hs : step c ev = some c') : Tidy c' := by
  cases ev with
  | ksDestroy =>
    unfold Client.step at hs
    dsimp only at hs
    split at hs
    case isFalse => cases hs
    case isTrue howed =>
      obtain rfl := Option.some.inj hs
      exact h.ksDestroy howed
  | ksInitialize answers =>
    have hgoes := ksInitialize_goes c answers
    unfold Client.step at hs
    unfold Meets at hmeets
    dsimp only at hs hmeets
    generalize (c.ksInitialize answers).1 = Status at hgoes hs
    generalize (c.ksInitialize answers).2 = c₁ at hgoes hs
    obtain rfl := Option.some.inj hs
    cases hgoes with
    | noVersion hfailed => simpa [hfailed] using h
    | unsupported hversion hunsupported => simp [hversion, hunsupported] at hmeets
    | notRegistered hversion hsupported hfailed => simpa [hfailed] using h
    | registered hversion hsupported hregisters =>
      obtain ⟨hcapture, hempty⟩ : ntSuccess answers.wskCaptureProviderNPI = true ∧ c.registered = ∅ := by
        simpa [hversion, hsupported, hregisters] using hmeets
      have hcaptured : c.captured = ∅ := h.captured.trans hempty
      simpa [hcapture, hempty, hcaptured] using h.acquire hempty

/-- For every version record and all statuses, with nothing registered before:
`KsInitialize` succeeds exactly if there is a captured registration then, and
fails with nothing left, exactly if the answers agree. For every sequence of
calls that destroys at most what was reported: all calls are sound exactly if
all meet the condition; and then each success has its registration, released and
deregistered once if it is destroyed and captured until then. -/
theorem reports_iff (answers : Answers) (events : List Event) :
    (∀ c : Client, c.registered = ∅ → c.captured = ∅ →
      (((ntSuccess (c.ksInitialize answers).1 = true ↔ (c.ksInitialize answers).2.Usable) ∧
        (ntSuccess (c.ksInitialize answers).1 = false →
          (c.ksInitialize answers).2.registered = ∅ ∧ (c.ksInitialize answers).2.captured = ∅)) ↔ answers.Agree)) ∧
    ((∀ x ∈ Run.visits step init events, Sound x.1 x.2) ↔ ∀ x ∈ Run.visits step init events, Meets x.1 x.2) ∧
    ∀ c, Run.exec step init events = some c → (∀ x ∈ Run.visits step init events, Meets x.1 x.2) →
      c.captured = c.registered ∧ c.deregistered = c.released ∧ c.released.Nodup ∧
        c.reported = c.released.length + c.registered.card := by
  refine ⟨?_, ?_, ?_⟩
  · intro c hregistered hcaptured
    exact ksInitialize_tells_iff hregistered hcaptured answers
  · refine Run.visits_iff (fun c ev h => h.sound_iff ev) ?_ Tidy.init events
    intro c ev c' h hsound hs
    exact h.step ((h.sound_iff ev).1 hsound) hs
  · intro c hexec hmeets
    have htidy : Tidy c := Run.exec_inv_of_visits (fun c ev c' h hev hs => h.step hev hs) Tidy.init hmeets hexec
    exact ⟨htidy.captured, htidy.deregistered, htidy.nodup, htidy.reported⟩

/-- Windows 10 where everything succeeds, a Windows Server, and a capture that fails. -/
def workstation : Answers := ⟨(STATUS_SUCCESS, ⟨VER_NT_WORKSTATION, 10, 0⟩), STATUS_SUCCESS, STATUS_SUCCESS⟩
def server : Answers := { workstation with rtlGetVersion := (STATUS_SUCCESS, ⟨3, 10, 0⟩) }
def uncaptured : Answers := { workstation with wskCaptureProviderNPI := STATUS_UNSUCCESSFUL }

example : (Run.exec step init [.ksInitialize workstation, .ksDestroy, .ksInitialize workstation, .ksDestroy]).map
    (fun c => (c.reported, c.released, c.registered)) = some (2, [1, 2], ∅) := by decide +kernel

/-- On a Windows Server `KsInitialize` succeeds and has registered nothing, and
`KsDestroy` is called on that. A capture that fails leaves the first registration. -/
theorem server_reported :
    init.ksInitialize server = (0x20010003, init) ∧ ntSuccess 0x20010003 = true ∧ ¬init.Usable ∧
      (Run.exec step init [.ksInitialize server, .ksDestroy]).map (·.released) = some [0] ∧
      (init.ksInitialize uncaptured).1 = STATUS_UNSUCCESSFUL ∧ (init.ksInitialize uncaptured).2.registered = {1} ∧
      ¬Sound init (.ksInitialize server) ∧ ¬Sound init (.ksInitialize uncaptured) := by
  refine ⟨by decide +kernel, by decide, by simp [Usable, init], by decide +kernel, by decide +kernel,
    by decide +kernel, ?_, ?_⟩
  · rintro ⟨hsuccess, -⟩
    obtain ⟨id, hnew, hinsert, -⟩ := hsuccess (by decide +kernel)
    exact hnew (hinsert ▸ Finset.mem_insert_self id _)
  · rintro ⟨-, hfailure, -⟩
    obtain ⟨hkept, -⟩ := hfailure (by decide +kernel)
    exact absurd hkept (by decide)

end Client

end KSock
