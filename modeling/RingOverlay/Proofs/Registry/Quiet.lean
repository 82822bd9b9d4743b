import RingOverlay.Registry.Run

/-!
# Registry — what only has effects

Logging, printing and sending add effects to a registry and change nothing else of it.  So does
answering a request, and so do the manifests of a setup.  That is said here once, as equations
between *quiet* registries, whose effects are forgotten.

`told r m` are the participants that `m` can be queued for, and a broadcast reaches as many.
-/

namespace RingOverlay.Registry

/-- The registry, with its effects forgotten. -/
def quiet (r : Registry) : Registry := { r with effects := [] }

/-- What does not look at effects is the same of registries that differ in nothing else. -/
theorem congr_of_quiet {α : Type} {r r' : Registry} (f : Registry → α)
    (hf : ∀ r, f r.quiet = f r) (h : r'.quiet = r.quiet) : f r' = f r := by
  rw [← hf r', h, hf]

variable (r : Registry)

@[simp] theorem quiet_emit (e : RegistryEffect) : (r.emit e).quiet = r.quiet := rfl

@[simp] theorem quiet_log (e : RegistryEvent) : (r.log e).quiet = r.quiet := rfl

@[simp] theorem quiet_notice (line : String) : (r.notice line).quiet = r.quiet := by
  unfold notice
  split <;> rfl

@[simp] theorem quiet_setPhase (p : Phase) :
    (r.setPhase p).quiet = { r.quiet with phase := p } := rfl

@[simp] theorem quiet_answerRegistration (link : LinkId) (status : Int32) (info : String) :
    (r.answerRegistration link status info).quiet = r.quiet := by
  unfold answerRegistration
  split <;> rfl

@[simp] theorem quiet_answerDeregistration (link : LinkId) (status : Int32) (info : String) :
    (r.answerDeregistration link status info).quiet = r.quiet := by
  unfold answerDeregistration
  split <;> rfl

/-! ### Sending -/

@[simp] theorem quiet_send (a : PeerAddress) (m : Message) : (r.send a m).1.quiet = r.quiet := by
  unfold send
  split
  · rfl
  · split <;> rfl

@[simp] theorem quiet_sendEach (m : Message) (as : List PeerAddress) :
    (sendEach m as r).1.quiet = r.quiet := by
  induction as generalizing r with
  | nil => rfl
  | cons a as ih => exact (ih _).trans (quiet_send r a m)

@[simp] theorem quiet_broadcast (m : Message) : (r.broadcast m).1.quiet = r.quiet := by
  unfold broadcast
  split
  · exact quiet_sendEach r m _
  · rfl

@[simp] theorem quiet_sendManifests (ids : List NodeId)
    (manifests : List (Entry × (NodeId × FingerTable))) :
    (sendManifests ids manifests r).quiet = r.quiet := by
  induction manifests generalizing r with
  | nil => rfl
  | cons x manifests ih => exact (ih _).trans (quiet_send r x.1.address _)

/-- Whether a message can be queued depends on the connections only. -/
theorem send_congr {r r' : Registry} (hcache : r'.cache = r.cache) (hlinks : r'.links = r.links)
    (a : PeerAddress) (m : Message) : (r'.send a m).2 = (r.send a m).2 := by
  unfold send
  rw [hcache, hlinks]
  split
  · rfl
  · split <;> rfl

/-- A round of messages reaches whoever can be sent to before it. -/
theorem sendEach_snd (m : Message) (as : List PeerAddress) :
    (sendEach m as r).2 = (as.filter fun a => (r.send a m).2).length := by
  induction as generalizing r with
  | nil => rfl
  | cons a as ih =>
    have hcache := congr_of_quiet cache (fun _ => rfl) (quiet_send r a m)
    have hlinks := congr_of_quiet links (fun _ => rfl) (quiet_send r a m)
    have hlater : ∀ b, ((r.send a m).1.send b m).2 = (r.send b m).2 :=
      fun b => send_congr hcache hlinks b m
    have hrest := ih (r.send a m).1
    simp only [hlater] at hrest
    cases hreached : (r.send a m).2 with
    | false => simp [sendEach, hreached, hrest]
    | true => simp [sendEach, hreached, hrest]

/-- The addresses of the present overlay. -/
def participants (r : Registry) : List PeerAddress :=
  match r.overlay with
  | some o => o.participants
  | none => []

theorem participants_of_overlay {r r' : Registry} (h : r'.overlay = r.overlay) :
    r'.participants = r.participants := by
  rw [participants, h, participants]

/-- The participants of the overlay that `m` can be queued for. -/
def told (m : Message) : List PeerAddress :=
  match r.overlay with
  | some o => o.participants.filter fun a => (r.send a m).2
  | none => []

/-- As many are reached by a broadcast. -/
theorem broadcast_snd (m : Message) : (r.broadcast m).2 = (r.told m).length := by
  unfold broadcast told
  cases r.overlay with
  | none => rfl
  | some o => exact sendEach_snd r m o.participants

theorem told_congr {r r' : Registry} (hoverlay : r'.overlay = r.overlay)
    (hcache : r'.cache = r.cache) (hlinks : r'.links = r.links) (m : Message) :
    r'.told m = r.told m := by
  unfold told
  rw [hoverlay]
  simp only [send_congr hcache hlinks]

end RingOverlay.Registry
