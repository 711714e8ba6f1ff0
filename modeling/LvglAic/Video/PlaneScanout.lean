import LvglAic.Video.Plane

/-! # The plane keeps what the hardware may read

A call keeps the relation between the observer and the plane, and each of its
events is permitted when its turn comes.
-/

namespace LvglAic.Video

variable {o : Scanout} {p next : VideoPlane} {trace events more : List PlaneEvent}
  {r : Resource} {resources : List Resource}

namespace Scanout

/-- The bytes of the copies that are alive. -/
def alive (o : Scanout) : Nat := (o.copies.map Prod.snd).sum

/-- Numbers are fresh, the hardware is given only what is held, and nothing that
it may still read is released. -/
def Permits (o : Scanout) : PlaneEvent → Prop
  | .acquired lease => lease = o.leased
  | .allocated copy bytes budget => copy = o.copied ∧ bytes + o.alive ≤ budget
  | .rotated touched _ => ∀ r ∈ touched, r ∈ o.held
  | .layer data _ => ∀ r ∈ data.shown, r ∈ o.held
  | .released r => r ∈ o.held ∧ r ∉ o.showing ∧ r ∉ o.touched
  | .vsync _ | .alphaSaved _ | .alpha _ _ | .closed => True

/-- Whatever the hardware may read is held. -/
structure Safe (o : Scanout) : Prop where
  nodup : o.held.Nodup
  showing : ∀ r ∈ o.showing, r ∈ o.held
  touched : ∀ r ∈ o.touched, r ∈ o.held
  confirming : ∀ shown once, o.confirming = some (shown, once) → ∀ r ∈ shown, r ∈ o.showing
  leases : ∀ n, .lease n ∈ o.held → n < o.leased
  copies : ∀ n, .copy n ∈ o.held → n < o.copied
  bounded : o.alive ≤ o.budget

theorem Safe.start : Safe .start := by
  constructor <;> simp [Scanout.start, alive]

theorem Safe.step {event : PlaneEvent} (safe : o.Safe) (permits : o.Permits event) :
    (o.step event).Safe := by
  obtain ⟨nodup, showing, touched, confirming, leases, copies, bounded⟩ := safe
  cases event with
  | acquired lease =>
      obtain rfl := permits
      have fresh : Resource.lease o.leased ∉ o.held := fun member =>
        absurd (leases _ member) (Nat.lt_irrefl _)
      refine ⟨List.nodup_cons.mpr ⟨fresh, nodup⟩, fun r member => .tail _ (showing r member),
        fun r member => .tail _ (touched r member), confirming, fun n member => ?_,
        fun n member => copies n (by simpa [Scanout.step] using member), bounded⟩
      rcases List.mem_cons.mp member with same | before
      · cases same
        exact Nat.lt_succ_self _
      · exact Nat.lt_succ_of_lt (leases n before)
  | allocated copy bytes budget =>
      obtain ⟨rfl, room⟩ := permits
      have fresh : Resource.copy o.copied ∉ o.held := fun member =>
        absurd (copies _ member) (Nat.lt_irrefl _)
      refine ⟨List.nodup_cons.mpr ⟨fresh, nodup⟩, fun r member => .tail _ (showing r member),
        fun r member => .tail _ (touched r member), confirming,
        fun n member => leases n (by simpa [Scanout.step] using member), fun n member => ?_, ?_⟩
      · rcases List.mem_cons.mp member with same | before
        · cases same
          exact Nat.lt_succ_self _
        · exact Nat.lt_succ_of_lt (copies n before)
      · simpa [Scanout.step, alive] using room
  | rotated given done =>
      simp only [Scanout.step]
      split
      · exact ⟨nodup, showing, touched, confirming, leases, copies, bounded⟩
      · refine ⟨nodup, showing, fun r member => ?_, confirming, leases, copies, bounded⟩
        exact (List.mem_append.mp member).elim (permits r) (touched r)
  | layer data done =>
      refine ⟨nodup, fun r member => ?_, touched, fun shown once same r member => ?_, leases, copies,
        bounded⟩
      · exact (List.mem_append.mp member).elim (permits r) (showing r)
      · simp only [Scanout.step] at same
        split at same
        · cases same
          exact List.mem_append_left _ member
        · cases same
  | vsync done =>
      cases found : o.confirming with
      | none =>
          simp only [Scanout.step, found]
          exact ⟨nodup, showing, touched, confirming, leases, copies, bounded⟩
      | some pair =>
          obtain ⟨shown, once⟩ := pair
          have kept := confirming shown once found
          simp only [Scanout.step, found]
          split
          · exact ⟨nodup, showing, touched, nofun, leases, copies, bounded⟩
          split
          · exact ⟨nodup, fun r member => showing r (kept r member), touched, nofun, leases, copies,
              bounded⟩
          · refine ⟨nodup, showing, touched, fun other again same r member => ?_, leases, copies,
              bounded⟩
            cases same
            exact kept r member
  | alphaSaved config => exact ⟨nodup, showing, touched, confirming, leases, copies, bounded⟩
  | alpha config done => exact ⟨nodup, showing, touched, nofun, leases, copies, bounded⟩
  | released r =>
      obtain ⟨_, unshown, untouched⟩ := permits
      refine ⟨nodup.erase r, fun s member => ?_, fun s member => ?_, confirming,
        fun n member => leases n (List.mem_of_mem_erase member),
        fun n member => copies n (List.mem_of_mem_erase member), ?_⟩
      · have other : s ≠ r := fun same => unshown (same ▸ member)
        exact (List.mem_erase_of_ne other).mpr (showing s member)
      · have other : s ≠ r := fun same => untouched (same ▸ member)
        exact (List.mem_erase_of_ne other).mpr (touched s member)
      · have fewer : (o.copies.filter fun copy => .copy copy.1 ≠ r).map Prod.snd
            |>.Sublist (o.copies.map Prod.snd) := (List.filter_sublist).map _
        exact Nat.le_trans (fewer.sum_le_sum fun _ _ => Nat.zero_le _) bounded
  | closed => exact ⟨nodup, showing, touched, confirming, leases, copies, bounded⟩

/-- Each event is permitted when its turn comes. -/
def Lawful : Scanout → List PlaneEvent → Prop
  | _, [] => True
  | o, event :: rest => o.Permits event ∧ Lawful (o.step event) rest

def after (o : Scanout) (events : List PlaneEvent) : Scanout := events.foldl Scanout.step o

@[simp] theorem after_nil : o.after [] = o := rfl

@[simp] theorem after_cons {event : PlaneEvent} : o.after (event :: events) = (o.step event).after events := rfl

theorem after_append : o.after (events ++ more) = (o.after events).after more := List.foldl_append

theorem Lawful.append (lawful : o.Lawful events) (rest : (o.after events).Lawful more) :
    o.Lawful (events ++ more) := by
  induction events generalizing o with
  | nil => exact rest
  | cons event events ih => exact ⟨lawful.1, ih lawful.2 rest⟩

theorem Lawful.left (lawful : o.Lawful (events ++ more)) : o.Lawful events := by
  induction events generalizing o with
  | nil => trivial
  | cons event events ih => exact ⟨lawful.1, ih lawful.2⟩

theorem Safe.after (safe : o.Safe) (lawful : o.Lawful events) : (o.after events).Safe := by
  induction events generalizing o with
  | nil => exact safe
  | cons event events ih => exact ih (safe.step lawful.1) lawful.2

/-! ## Releasing and updating -/

/-- What a row of releases leaves of the observer. -/
structure Freed (o q : Scanout) (resources : List Resource) : Prop where
  showing : q.showing = o.showing
  touched : q.touched = o.touched
  leased : q.leased = o.leased
  copied : q.copied = o.copied
  held : ∀ r, r ∈ q.held ↔ r ∈ o.held ∧ r ∉ resources
  copies : q.copies = o.copies.filter fun copy => .copy copy.1 ∉ resources

theorem after_releases (resources : List Resource) (nodup : o.held.Nodup) :
    Freed o (o.after (resources.map .released)) resources := by
  induction resources generalizing o with
  | nil => exact ⟨rfl, rfl, rfl, rfl, by simp, by simp⟩
  | cons first rest ih =>
      obtain ⟨showing, touched, leased, copied, held, copies⟩ :=
        ih (o := o.step (.released first)) (nodup.erase first)
      refine ⟨showing, touched, leased, copied, fun r => ?_, ?_⟩
      · rw [List.map_cons, after_cons, held r]
        change r ∈ o.held.erase first ∧ r ∉ rest ↔ _
        rw [nodup.mem_erase_iff, List.mem_cons, not_or]
        tauto
      · rw [List.map_cons, after_cons, copies]
        change (o.copies.filter _).filter _ = _
        rw [List.filter_filter]
        refine List.filter_congr fun copy _ => ?_
        simp [Bool.and_comm]

theorem lawful_releases (nodup : o.held.Nodup) (distinct : resources.Nodup)
    (free : ∀ r ∈ resources, r ∈ o.held ∧ r ∉ o.showing ∧ r ∉ o.touched) :
    o.Lawful (resources.map .released) := by
  induction resources generalizing o with
  | nil => trivial
  | cons first rest ih =>
      obtain ⟨absent, distinct⟩ := List.nodup_cons.mp distinct
      refine ⟨free first List.mem_cons_self, ih (nodup.erase first) distinct fun r member => ?_⟩
      obtain ⟨held, unread⟩ := free r (List.mem_cons_of_mem _ member)
      have other : r ≠ first := fun same => absent (same ▸ member)
      exact ⟨(List.mem_erase_of_ne other).mpr held, unread⟩

variable {a : UpdateAnswer} {data : LayerData} {config : AlphaConfig}

theorem lawful_layer (data : LayerData) (held : ∀ r ∈ data.shown, r ∈ o.held) : o.Lawful (a.events (.layer data)) := by
  unfold UpdateAnswer.events UpdateAnswer.sync
  split
  · split
    · exact ⟨held, trivial, trivial, trivial⟩
    · exact ⟨held, trivial, trivial⟩
  · exact ⟨held, trivial⟩

theorem after_layer_confirmed (confirmed : a.confirmed = true) :
    o.after (a.events (.layer data)) = { o with showing := data.shown, confirming := none } := by
  simp only [UpdateAnswer.confirmed, Bool.and_eq_true] at confirmed
  obtain ⟨⟨update, first⟩, second⟩ := confirmed
  simp [UpdateAnswer.events, UpdateAnswer.sync, update, first, second, Scanout.step]

theorem after_layer_failed (data : LayerData) (failed : ¬a.confirmed = true) : ∃ confirming,
    o.after (a.events (.layer data)) =
      { o with showing := data.shown ++ o.showing, confirming := confirming } := by
  simp only [UpdateAnswer.confirmed, Bool.and_eq_true, not_and, Bool.not_eq_true] at failed
  unfold UpdateAnswer.events UpdateAnswer.sync
  cases update : a.update with
  | false => exact ⟨none, by simp [Scanout.step]⟩
  | true =>
      cases first : a.first with
      | false => exact ⟨none, by simp [Scanout.step]⟩
      | true => exact ⟨none, by simp [Scanout.step, failed ⟨update, first⟩]⟩

theorem lawful_alpha (config : AlphaConfig) : o.Lawful (a.events (.alpha config)) := by
  unfold UpdateAnswer.events UpdateAnswer.sync
  split
  · split
    · exact ⟨trivial, trivial, trivial, trivial⟩
    · exact ⟨trivial, trivial, trivial⟩
  · exact ⟨trivial, trivial⟩

theorem after_alpha : o.after (a.events (.alpha config)) = { o with confirming := none } := by
  unfold UpdateAnswer.events UpdateAnswer.sync
  split
  · split <;> rfl
  · rfl

end Scanout

/-! ## The plane -/

/-- The copy of a reader, with its size. -/
def Reader.copies (reader : Reader) : List (Nat × Nat) :=
  reader.copy.toList.map fun copy => (copy, reader.bytes)

/-- The readers hold what the observer sees held; only a faulted update leaves a
pending reader in scanout. -/
structure Tracks (o : Scanout) (p : VideoPlane) : Prop where
  safe : o.Safe
  leases : o.leased = p.leases
  numbers : o.copied = p.copies
  held : ∀ r, r ∈ o.held ↔ r ∈ p.current.resources ∨ r ∈ p.pending.resources
  apart : ∀ r ∈ p.current.resources, r ∉ p.pending.resources
  showing : ∀ r ∈ o.showing,
    r ∈ p.current.resources ∨ p.faulted = true ∧ r ∈ p.pending.resources
  touched : ∀ r ∈ o.touched, p.geFault = true ∧ r ∈ p.pending.resources
  copies : o.copies = p.pending.copies ++ p.current.copies
  sized : p.current.copy = none → p.current.bytes = 0

/-- Between the calls. -/
structure Rests (p : VideoPlane) : Prop where
  pending : p.faulted = false → p.geFault = false → p.pending = .empty
  calm : p.submitted = false → p.current = .empty ∧ p.faulted = false

/-- The events may happen, and lead to what the next plane tracks. -/
def Leads (o : Scanout) (events : List PlaneEvent) (next : VideoPlane) : Prop :=
  o.Lawful events ∧ Tracks (o.after events) next

theorem Leads.append (first : o.Lawful events) (rest : Leads (o.after events) more next) :
    Leads o (events ++ more) next :=
  ⟨first.append rest.1, by rw [Scanout.after_append]; exact rest.2⟩

theorem Reader.resources_nodup (reader : Reader) : reader.resources.Nodup := by
  cases lease : reader.lease <;> cases copy : reader.copy <;> simp [Reader.resources, lease, copy]

@[simp] theorem Reader.empty_resources : Reader.empty.resources = [] := rfl

@[simp] theorem Reader.empty_copies : Reader.empty.copies = [] := rfl

theorem Reader.mem_resources_copy {reader : Reader} {copy : Nat × Nat}
    (member : copy ∈ reader.copies) : .copy copy.1 ∈ reader.resources := by
  obtain ⟨number, found, rfl⟩ := List.mem_map.mp member
  exact List.mem_append_right _ (List.mem_map.mpr ⟨number, found, rfl⟩)

section
variable (tracks : Tracks o p) (sound : p.faulted = false) (working : p.geFault = false)
include tracks

theorem Tracks.lease (vacant : p.pending = .empty) :
    Leads o [.acquired p.leases] p.lease := by
  have lawful : o.Lawful [.acquired p.leases] := ⟨tracks.leases.symm, trivial⟩
  have fresh : Resource.lease p.leases ∉ p.current.resources := by
    intro member
    have before := tracks.safe.leases _ ((tracks.held _).mpr (.inl member))
    rw [tracks.leases] at before
    exact Nat.lt_irrefl _ before
  obtain ⟨safe, leases, numbers, held, apart, showing, touched, copies, sized⟩ := tracks
  have alone : p.lease.pending.resources = [.lease p.leases] := by
    simp [VideoPlane.lease, vacant, Reader.empty, Reader.resources]
  have uncopied : p.lease.pending.copies = p.pending.copies := rfl
  refine ⟨lawful, safe.after lawful, congrArg (· + 1) leases, numbers, fun r => ?_, fun r member => ?_,
    fun r member => ?_, fun r member => ?_, ?_, sized⟩
  · simp only [Scanout.after_cons, Scanout.after_nil, Scanout.step, List.mem_cons, held r, vacant,
      Reader.empty_resources, List.not_mem_nil, or_false]
    rw [alone, List.mem_singleton, or_comm]
    rfl
  · rw [alone, List.mem_singleton]
    rintro rfl
    exact fresh member
  · rcases showing r member with before | ⟨broken, inside⟩
    · exact .inl before
    · simp [vacant] at inside
  · simpa [vacant] using (touched r member).2
  · rw [uncopied]
    exact copies

include sound working

theorem Tracks.unread (r : Resource) (member : r ∈ p.pending.resources) :
    r ∈ o.held ∧ r ∉ o.showing ∧ r ∉ o.touched := by
  refine ⟨(tracks.held r).mpr (.inr member), fun shown => ?_, fun open_ => ?_⟩
  · rcases tracks.showing r shown with current | ⟨broken, _⟩
    · exact tracks.apart r current member
    · rw [sound] at broken
      cases broken
  · have broken := (tracks.touched r open_).1
    rw [working] at broken
    cases broken

theorem Tracks.releasePending : Leads o p.releasePending.2 p.releasePending.1 := by
  have lawful : o.Lawful p.pending.releases :=
    Scanout.lawful_releases tracks.safe.nodup p.pending.resources_nodup
      (tracks.unread sound working)
  obtain ⟨safe, leases, numbers, held, apart, showing, touched, copies, sized⟩ := tracks
  obtain ⟨showing', touched', leased', copied', held', copies'⟩ :=
    Scanout.after_releases p.pending.resources safe.nodup
  refine ⟨lawful, safe.after lawful, leased'.trans leases, copied'.trans numbers, fun r => ?_,
    fun r member => by simp [VideoPlane.releasePending], fun r member => ?_, fun r member => ?_, ?_,
    sized⟩
  · rw [VideoPlane.releasePending, Reader.releases, held' r, held r]
    simp only [Reader.empty_resources, List.not_mem_nil, or_false]
    have separate := apart r
    tauto
  · rw [VideoPlane.releasePending, Reader.releases, showing'] at member
    rcases showing r member with before | ⟨broken, _⟩
    · exact .inl before
    · rw [sound] at broken
      cases broken
  · rw [VideoPlane.releasePending, Reader.releases, touched'] at member
    have broken := (touched r member).1
    rw [working] at broken
    cases broken
  · rw [VideoPlane.releasePending, Reader.releases, copies', copies, List.filter_append]
    have gone : (p.pending.copies.filter fun copy => .copy copy.1 ∉ p.pending.resources) = [] := by
      refine List.filter_eq_nil_iff.mpr fun copy member => ?_
      simpa using Reader.mem_resources_copy member
    have kept : (p.current.copies.filter fun copy => .copy copy.1 ∉ p.pending.resources) =
        p.current.copies := by
      refine List.filter_eq_self.mpr fun copy member => ?_
      simpa using apart _ (Reader.mem_resources_copy member)
    rw [gone, kept]
    rfl

variable {lease number bytes budget : Nat}

/-- A copy of the leased source was allocated. -/
theorem Tracks.allocate (bytes budget : Nat)
    (pending : p.pending = { lease := some lease, copy := none, bytes := 0 })
    (room : ¬(budget < bytes || budget - bytes < p.current.bytes) = true) :
    Leads o [.allocated p.copies bytes budget] { p with
      ge := true
      copies := p.copies + 1
      pending := { p.pending with copy := some p.copies, bytes := bytes } } := by
  simp only [Bool.or_eq_true, decide_eq_true_eq, not_or, Nat.not_lt] at room
  have alive : o.alive = p.current.bytes := by
    rw [Scanout.alive, tracks.copies, pending]
    cases copy : p.current.copy with
    | none => simp [Reader.copies, copy, tracks.sized copy]
    | some number => simp [Reader.copies, copy]
  have lawful : o.Lawful [.allocated p.copies bytes budget] :=
    ⟨⟨tracks.numbers.symm, by omega⟩, trivial⟩
  have fresh : Resource.copy p.copies ∉ p.current.resources := by
    intro member
    have before := tracks.safe.copies _ ((tracks.held _).mpr (.inl member))
    rw [tracks.numbers] at before
    exact Nat.lt_irrefl _ before
  obtain ⟨safe, leases, numbers, held, apart, showing, touched, copies, sized⟩ := tracks
  refine ⟨lawful, safe.after lawful, leases, congrArg (· + 1) numbers, fun r => ?_,
    fun r member => ?_, fun r member => ?_, fun r member => ?_, ?_, sized⟩
  · simp only [Scanout.after_cons, Scanout.after_nil, Scanout.step, List.mem_cons, held r, pending,
      Reader.resources, Option.toList, List.map_cons, List.map_nil, List.append_nil,
      List.cons_append, List.nil_append, List.not_mem_nil, or_false]
    tauto
  · have separate := apart r member
    simp only [pending, Reader.resources, Option.toList, List.map_cons, List.map_nil,
      List.append_nil, List.cons_append, List.nil_append, List.mem_cons, List.not_mem_nil,
      or_false] at separate ⊢
    rintro (same | rfl)
    · exact separate same
    · exact fresh member
  · rcases showing r member with before | ⟨broken, _⟩
    · exact .inl before
    · rw [sound] at broken
      cases broken
  · have broken := (touched r member).1
    rw [working] at broken
    cases broken
  · simp [Scanout.step, copies, pending, Reader.copies]

/-- The engine is done with the source, which is given back. -/
theorem Tracks.retire (lease number bytes : Nat)
    (pending : p.pending = { lease := some lease, copy := some number, bytes := bytes }) :
    Leads o [.rotated p.pending.resources true, .released (.lease lease)]
      { p with pending := { p.pending with lease := none } } := by
  have inside : Resource.lease lease ∈ p.pending.resources := by simp [pending, Reader.resources]
  have lawful : o.Lawful [.rotated p.pending.resources true, .released (.lease lease)] :=
    ⟨fun r member => (tracks.held r).mpr (.inr member), tracks.unread sound working _ inside, trivial⟩
  obtain ⟨safe, leases, numbers, held, apart, showing, touched, copies, sized⟩ := tracks
  refine ⟨lawful, safe.after lawful, leases, numbers, fun r => ?_, fun r member => ?_,
    fun r member => ?_, fun r member => ?_, ?_, sized⟩
  · change r ∈ o.held.erase _ ↔ _
    rw [safe.nodup.mem_erase_iff, held r]
    have separate := apart (.lease lease)
    simp only [pending, Reader.resources, Option.toList, List.map_cons, List.map_nil,
      List.cons_append, List.nil_append, List.mem_cons, List.not_mem_nil, or_false, true_or,
      not_true_eq_false, imp_false] at separate ⊢
    constructor
    · rintro ⟨other, current | same | copied⟩
      · exact .inl current
      · exact absurd same other
      · exact .inr copied
    · rintro (current | rfl)
      · exact ⟨fun same => separate (same ▸ current), .inl current⟩
      · exact ⟨nofun, .inr (.inr rfl)⟩
  · have separate := apart r member
    simp only [pending, Reader.resources, Option.toList, List.map_cons, List.map_nil,
      List.cons_append, List.nil_append, List.mem_cons, List.not_mem_nil, or_false,
      not_or] at separate ⊢
    exact separate.2
  · rcases showing r member with before | ⟨broken, _⟩
    · exact .inl before
    · rw [sound] at broken
      cases broken
  · have broken := (touched r member).1
    rw [working] at broken
    cases broken
  · change o.copies.filter _ = _
    rw [copies]
    refine List.filter_eq_self.mpr fun copy _ => ?_
    simp

/-- The engine failed: it may go on reading and writing. -/
theorem Tracks.break : Leads o [.rotated p.pending.resources false] { p with geFault := true } := by
  have lawful : o.Lawful [.rotated p.pending.resources false] :=
    ⟨fun r member => (tracks.held r).mpr (.inr member), trivial⟩
  obtain ⟨safe, leases, numbers, held, apart, showing, touched, copies, sized⟩ := tracks
  refine ⟨lawful, safe.after lawful, leases, numbers, held, apart, showing, fun r member => ?_,
    copies, sized⟩
  rcases List.mem_append.mp member with now | before
  · exact ⟨rfl, now⟩
  · exact ⟨rfl, (touched r before).2⟩

variable {buffer : MppBuf} {degrees x y width height : Nat} {answer : RotateAnswer} {a : UpdateAnswer}

/-- A rotation that fails without a fault can be undone. -/
theorem Tracks.rotateCopy (buffer : MppBuf) (degrees budget : Nat) (answer : RotateAnswer)
    (pending : p.pending = { lease := some lease, copy := none, bytes := 0 }) :
    Leads o (p.rotateCopy buffer degrees budget answer).2.2
        (p.rotateCopy buffer degrees budget answer).2.1 ∧
      (p.rotateCopy buffer degrees budget answer).2.1.faulted = false ∧
      ((p.rotateCopy buffer degrees budget answer).1 = true →
        (p.rotateCopy buffer degrees budget answer).2.1.geFault = false ∧
        (p.rotateCopy buffer degrees budget answer).2.1.pending.copy ≠ none) := by
  unfold VideoPlane.rotateCopy
  dsimp only
  split
  · exact ⟨⟨trivial, tracks⟩, sound, nofun⟩
  split
  · exact ⟨⟨trivial, tracks⟩, sound, nofun⟩
  split
  · exact ⟨⟨trivial, tracks⟩, sound, nofun⟩
  rename_i room
  split
  · exact ⟨⟨trivial, tracks⟩, sound, nofun⟩
  have allocated := tracks.allocate sound working (VideoPlane.copyBytes buffer degrees)
    budget pending room
  split
  · obtain ⟨safe, leases, numbers, held, apart, showing, touched, copies, sized⟩ := tracks
    exact ⟨⟨trivial, safe, leases, numbers, held, apart, showing, touched, copies, sized⟩, sound,
      nofun⟩
  split
  · exact ⟨allocated, sound, nofun⟩
  split
  · refine ⟨.append allocated.1 ?_, sound, fun _ => ⟨working, nofun⟩⟩
    have retired := allocated.2.retire sound working lease p.copies
      (VideoPlane.copyBytes buffer degrees) (by rw [pending])
    simpa only [pending, Option.toList, List.map_cons, List.map_nil] using retired
  · exact ⟨.append allocated.1 (allocated.2.break sound working), sound, nofun⟩

omit sound in
/-- The new frame replaces the old one, or both stay. -/
theorem Tracks.showLayer (sized : p.pending.copy = none → p.pending.bytes = 0) :
    Leads o (p.showLayer x y width height a).2.2 (p.showLayer x y width height a).2.1 := by
  obtain ⟨safe, leases, numbers, held, apart, showing, touched, copies, before⟩ := tracks
  unfold VideoPlane.showLayer
  dsimp only
  have lawful := Scanout.lawful_layer (o := o) (a := a) {
    enable := true
    shown := p.pending.resources
    x := x
    y := y
    width := width
    height := height } fun r member => (held r).mpr (.inr member)
  have kept := safe.after lawful
  split
  · rename_i confirmed
    rw [Scanout.after_layer_confirmed confirmed] at kept
    have calm : ∀ r, r ∉ o.touched := by
      intro r member
      have broken := (touched r member).1
      rw [working] at broken
      cases broken
    have free := Scanout.lawful_releases kept.nodup p.current.resources_nodup
      fun r member => ⟨(held r).mpr (.inl member), apart r member, calm r⟩
    obtain ⟨showing', touched', leased', copied', held', copies'⟩ :=
      Scanout.after_releases p.current.resources kept.nodup
    refine .append lawful ?_
    rw [Scanout.after_layer_confirmed confirmed]
    refine ⟨free, kept.after free, leased'.trans leases, copied'.trans numbers, fun r => ?_,
      fun r _ => by simp, fun r member => ?_, fun r member => ?_, ?_, sized⟩
    · rw [Reader.releases, held' r]
      simp only [held r, Reader.empty_resources, List.not_mem_nil, or_false]
      have separate := apart r
      tauto
    · rw [Reader.releases, showing'] at member
      exact .inl member
    · rw [Reader.releases, touched'] at member
      exact absurd member (calm r)
    · rw [Reader.releases, copies']
      simp only [copies, List.filter_append]
      have gone : (p.current.copies.filter fun copy => .copy copy.1 ∉ p.current.resources) = [] := by
        refine List.filter_eq_nil_iff.mpr fun copy member => ?_
        simpa using Reader.mem_resources_copy member
      have stays : (p.pending.copies.filter fun copy => .copy copy.1 ∉ p.current.resources) =
          p.pending.copies := by
        refine List.filter_eq_self.mpr fun copy member => ?_
        have inside := Reader.mem_resources_copy member
        simpa using fun current => apart _ current inside
      rw [gone, stays, List.append_nil]
      rfl
  · rename_i failed
    obtain ⟨confirming, same⟩ := Scanout.after_layer_failed (o := o) _ failed
    refine ⟨lawful, ?_⟩
    rw [same] at kept ⊢
    refine ⟨kept, leases, numbers, held, apart, fun r member => ?_, touched, copies, before⟩
    rcases List.mem_append.mp member with now | earlier
    · exact .inr ⟨rfl, now⟩
    · rcases showing r earlier with current | ⟨_, inside⟩
      · exact .inl current
      · exact .inr ⟨rfl, inside⟩

end

/-- Every way through `acquire`. -/
theorem acquire_cases (p : VideoPlane) (source : VideoSource) :
    p.acquire source = (none, p.releasePending) ∨
    p.acquire source = (none, p.lease.releasePending.1,
      .acquired p.leases :: p.lease.releasePending.2) ∨
    ∃ buffer, p.acquire source = (some buffer, p.lease, [.acquired p.leases]) := by
  cases source with
  | unknown => exact .inl rfl
  | rgb frame =>
      unfold VideoPlane.acquire
      cases checked : (VideoSource.rgb frame).buffer p.floor with
      | none => exact .inr (.inl (by simp only [checked]))
      | some buffer => exact .inr (.inr ⟨buffer, by simp only [checked]⟩)
  | yuv native layout =>
      unfold VideoPlane.acquire
      cases checked : (VideoSource.yuv native layout).buffer p.floor with
      | none => exact .inr (.inl (by simp only [checked]))
      | some buffer => exact .inr (.inr ⟨buffer, by simp only [checked]⟩)

/-- Either nothing is saved, or the old configuration is and the new one applied. -/
theorem enableUiAlpha_cases (p : VideoPlane) (read : Option AlphaConfig) (a : UpdateAnswer) :
    (p.enableUiAlpha read a).2 = (p, []) ∨ p.alphaSaved = false ∧ ∃ old broken,
      (p.enableUiAlpha read a).2 =
        ({ p with savedAlpha := old, alphaSaved := true, alphaFault := broken },
          .alphaSaved old :: a.events (.alpha .perPixel)) := by
  unfold VideoPlane.enableUiAlpha
  dsimp only
  split
  · exact .inl rfl
  split
  · exact .inl rfl
  rename_i unsaved
  split
  · exact .inl rfl
  split
  · exact .inl rfl
  rename_i old
  split
  · exact .inl rfl
  split
  · exact .inr ⟨by simpa using unsaved, old, p.alphaFault, rfl⟩
  · exact .inr ⟨by simpa using unsaved, old, true, rfl⟩

section
variable (tracks : Tracks o p) (rests : Rests p) {source : VideoSource} {column row : Int}
  {width height degrees budget : Nat} {answer : RotateAnswer} {a restore : UpdateAnswer}
include tracks

theorem Tracks.enableUiAlpha (read : Option AlphaConfig) :
    Leads o (p.enableUiAlpha read a).2.2 (p.enableUiAlpha read a).2.1 := by
  rcases enableUiAlpha_cases p read a with same | ⟨_, old, broken, same⟩
  · rw [same]
    exact ⟨trivial, tracks⟩
  · have lawful : o.Lawful (.alphaSaved old :: a.events (.alpha .perPixel)) :=
      ⟨trivial, Scanout.lawful_alpha _⟩
    have kept := tracks.safe.after lawful
    have ended : o.after (.alphaSaved old :: a.events (.alpha .perPixel)) =
        { o with confirming := none } := Scanout.after_alpha
    obtain ⟨safe, leases, numbers, held, apart, showing, touched, copies, sized⟩ := tracks
    rw [same]
    refine ⟨lawful, ?_⟩
    rw [ended] at kept ⊢
    exact ⟨kept, leases, numbers, held, apart, showing, touched, copies, sized⟩

theorem Tracks.restoreAlpha : Leads o (p.restoreAlpha a).2.2 (p.restoreAlpha a).2.1 := by
  have same : Leads o [] p := ⟨trivial, tracks⟩
  have lawful := Scanout.lawful_alpha (o := o) (a := a) p.savedAlpha
  have kept := tracks.safe.after lawful
  obtain ⟨safe, leases, numbers, held, apart, showing, touched, copies, sized⟩ := tracks
  unfold VideoPlane.restoreAlpha
  dsimp only
  split
  · exact same
  split
  all_goals
    refine ⟨lawful, ?_⟩
    rw [Scanout.after_alpha] at kept ⊢
    exact ⟨kept, leases, numbers, held, apart, showing, touched, copies, sized⟩

/-- After two waits nothing is scanned out, and both readers go. -/
theorem Tracks.hide : Leads o (p.hide a).2.2 (p.hide a).2.1 := by
  have same : Leads o [] p := ⟨trivial, tracks⟩
  obtain ⟨safe, leases, numbers, held, apart, showing, touched, copies, sized⟩ := tracks
  unfold VideoPlane.hide
  dsimp only
  split
  · exact same
  rename_i working
  split
  · exact same
  have lawful := Scanout.lawful_layer (o := o) (a := a) .disabled nofun
  have kept := safe.after lawful
  split
  · rename_i confirmed
    have calm : ∀ r, r ∉ o.touched := by
      intro r member
      exact working (touched r member).1
    rw [Scanout.after_layer_confirmed confirmed] at kept
    have both : p.current.releases ++ p.pending.releases =
        (p.current.resources ++ p.pending.resources).map .released := by
      rw [Reader.releases, Reader.releases, List.map_append]
    have distinct : (p.current.resources ++ p.pending.resources).Nodup :=
      List.nodup_append.mpr ⟨p.current.resources_nodup, p.pending.resources_nodup,
        fun r first s second same => apart r first (same ▸ second)⟩
    have free := Scanout.lawful_releases kept.nodup distinct
      fun r member => ⟨(held r).mpr (List.mem_append.mp member), nofun, calm r⟩
    obtain ⟨showing', touched', leased', copied', held', copies'⟩ :=
      Scanout.after_releases (p.current.resources ++ p.pending.resources) kept.nodup
    rw [List.append_assoc, both]
    refine .append lawful ?_
    rw [Scanout.after_layer_confirmed confirmed]
    refine ⟨free, kept.after free, leased'.trans leases, copied'.trans numbers, fun r => ?_,
      nofun, fun r member => ?_, fun r member => ?_, ?_, fun _ => rfl⟩
    · rw [held' r]
      simp only [held r, List.mem_append, Reader.empty_resources, List.not_mem_nil, or_self,
        and_not_self]
    · rw [showing'] at member
      cases member
    · rw [touched'] at member
      exact absurd member (calm r)
    · rw [copies']
      simp only [Reader.empty_copies, List.append_nil]
      refine List.filter_eq_nil_iff.mpr fun copy member => ?_
      simp only [copies, List.mem_append] at member
      have owned := member.imp Reader.mem_resources_copy Reader.mem_resources_copy
      simpa using or_iff_not_imp_left.mp owned.symm
  · rename_i failed
    obtain ⟨confirming, issued⟩ := Scanout.after_layer_failed (o := o) .disabled failed
    refine ⟨lawful, ?_⟩
    rw [issued] at kept ⊢
    refine ⟨kept, leases, numbers, held, apart, fun r member => ?_, touched, copies, sized⟩
    rcases showing r member with current | ⟨_, inside⟩
    · exact .inl current
    · exact .inr ⟨rfl, inside⟩

include rests

theorem Tracks.present :
    Leads o (p.present source column row width height degrees budget answer a).2.2
      (p.present source column row width height degrees budget answer a).2.1 := by
  have same : Leads o [] p := ⟨trivial, tracks⟩
  unfold VideoPlane.present
  dsimp only
  split
  · exact same
  rename_i admitted
  simp only [Bool.or_eq_true, not_or, Bool.not_eq_true] at admitted
  have sound : p.faulted = false := admitted.1.1.1.1.1.1.1.1.1
  have working : p.geFault = false := admitted.1.1.1.1.1.1.1.2
  have vacant := rests.pending sound working
  have leased := tracks.lease vacant
  have held : p.lease.pending = { lease := some p.leases, copy := none, bytes := 0 } := by
    rw [VideoPlane.lease, vacant]
    rfl
  rcases acquire_cases p source with unknown | refused | ⟨buffer, taken⟩
  · rw [unknown]
    exact tracks.releasePending sound working
  · rw [refused]
    exact .append leased.1 (leased.2.releasePending sound working)
  · rw [taken]
    simp only
    split
    · exact .append leased.1 (leased.2.showLayer working fun _ => by rw [held])
    split
    · exact .append leased.1 (leased.2.releasePending sound working)
    obtain ⟨rotated, still, done⟩ := leased.2.rotateCopy sound working buffer degrees
      budget answer held
    have both := Leads.append leased.1 rotated
    split
    · rename_i success
      refine .append both.1 ?_
      obtain ⟨intact, copied⟩ := done success
      exact both.2.showLayer intact fun none => absurd none copied
    split
    · exact both
    · rename_i intact
      refine .append both.1 (both.2.releasePending still ?_)
      simpa using intact

end

/-! ## Runs -/

theorem Rests.present {source : VideoSource} {column row : Int} {width height degrees budget : Nat}
    {answer : RotateAnswer} {a : UpdateAnswer} (rests : Rests p) :
    Rests (p.present source column row width height degrees budget answer a).2.1 := by
  obtain ⟨pending, calm⟩ := rests
  unfold VideoPlane.present
  dsimp only
  split
  · exact ⟨pending, calm⟩
  rename_i admitted
  simp only [Bool.or_eq_true, not_or, Bool.not_eq_true] at admitted
  have sound : p.faulted = false := admitted.1.1.1.1.1.1.1.1.1
  rcases acquire_cases p source with unknown | refused | ⟨buffer, taken⟩
  · rw [unknown]
    exact ⟨fun _ _ => rfl, calm⟩
  · rw [refused]
    exact ⟨fun _ _ => rfl, calm⟩
  · rw [taken]
    simp only
    have shown : ∀ q : VideoPlane, Rests (q.showLayer column.toNat row.toNat width height a).2.1 := by
      intro q
      unfold VideoPlane.showLayer
      dsimp only
      split
      · exact ⟨fun _ _ => rfl, nofun⟩
      · exact ⟨nofun, nofun⟩
    split
    · exact shown _
    split
    · exact ⟨fun _ _ => rfl, calm⟩
    split
    · exact shown _
    have kept : (p.lease.rotateCopy buffer degrees budget answer).2.1.submitted = p.submitted ∧
        (p.lease.rotateCopy buffer degrees budget answer).2.1.current = p.current ∧
        (p.lease.rotateCopy buffer degrees budget answer).2.1.faulted = p.faulted := by
      unfold VideoPlane.rotateCopy
      dsimp only
      repeat' split
      all_goals exact ⟨rfl, rfl, rfl⟩
    obtain ⟨submitted, current, faulted⟩ := kept
    split
    · rename_i broken
      refine ⟨fun _ working => ?_, fun idle => ?_⟩
      · rw [broken] at working
        cases working
      · rw [current, faulted]
        exact calm (submitted.symm.trans idle)
    · refine ⟨fun _ _ => rfl, fun idle => ?_⟩
      have before := calm (submitted.symm.trans idle)
      exact ⟨current.trans before.1, faulted.trans before.2⟩

theorem Rests.enableUiAlpha (read : Option AlphaConfig) (a : UpdateAnswer) (rests : Rests p) :
    Rests (p.enableUiAlpha read a).2.1 := by
  obtain ⟨pending, calm⟩ := rests
  rcases enableUiAlpha_cases p read a with same | ⟨_, old, broken, same⟩ <;> rw [same]
  · exact ⟨pending, calm⟩
  · exact ⟨pending, calm⟩

theorem Rests.hide {a : UpdateAnswer} (rests : Rests p) : Rests (p.hide a).2.1 := by
  obtain ⟨pending, calm⟩ := rests
  unfold VideoPlane.hide
  dsimp only
  split
  · exact ⟨pending, calm⟩
  split
  · exact ⟨pending, calm⟩
  rename_i submitted
  split
  · exact ⟨fun _ _ => rfl, fun _ => ⟨rfl, rfl⟩⟩
  · exact ⟨nofun, fun idle => absurd idle (by simpa using submitted)⟩

theorem Rests.restoreAlpha {a : UpdateAnswer} (rests : Rests p) : Rests (p.restoreAlpha a).2.1 := by
  obtain ⟨pending, calm⟩ := rests
  unfold VideoPlane.restoreAlpha
  dsimp only
  repeat' split
  all_goals exact ⟨pending, calm⟩

theorem hide_success {a : UpdateAnswer} (done : (p.hide a).1 = true) :
    (p.hide a).2.1.submitted = false ∧ (p.hide a).2.1.geFault = false := by
  unfold VideoPlane.hide at done ⊢
  dsimp only at done ⊢
  split at done
  · cases done
  rename_i working
  split at done
  · rename_i idle
    simp only [working, idle, if_true]
    exact ⟨by simpa using idle, by simpa using working⟩
  rename_i submitted
  split at done
  · rename_i confirmed
    simp only [working, submitted, confirmed, if_true]
    exact ⟨rfl, by simpa using working⟩
  · cases done

section
variable {source : VideoSource} {column row : Int} {width height degrees budget : Nat}
  {answer : RotateAnswer} {a : UpdateAnswer} {read : Option AlphaConfig} {buffer : MppBuf}

/-- The alpha configurations read at enable. -/
def savedAlphas (trace : List PlaneEvent) : List AlphaConfig :=
  trace.filterMap fun event => match event with
    | .alphaSaved config => some config
    | _ => none

/-- The layer updates that were issued. -/
def layers (trace : List PlaneEvent) : List (LayerData × Bool) :=
  trace.filterMap fun event => match event with
    | .layer data done => some (data, done)
    | _ => none

theorem savedAlphas_append : savedAlphas (events ++ more) = savedAlphas events ++ savedAlphas more :=
  List.filterMap_append

theorem layers_append : layers (events ++ more) = layers events ++ layers more :=
  List.filterMap_append

/-- A stretch of a call that has nothing to do with the alpha configuration, and
issues no update of the layer unless the plane counts as submitted. -/
structure Plain (p next : VideoPlane) (events : List PlaneEvent) : Prop where
  owned : next.owned = p.owned
  alpha : next.alphaSaved = p.alphaSaved ∧ next.savedAlpha = p.savedAlpha
  saved : savedAlphas events = []
  quiet : next.submitted = false → p.submitted = false ∧ layers events = []

theorem Plain.append {middle : VideoPlane} (first : Plain p middle events)
    (second : Plain middle next more) : Plain p next (events ++ more) := by
  obtain ⟨owned, ⟨saving, alpha⟩, saved, quiet⟩ := first
  obtain ⟨owned', ⟨saving', alpha'⟩, saved', quiet'⟩ := second
  refine ⟨owned'.trans owned, ⟨saving'.trans saving, alpha'.trans alpha⟩, ?_, fun idle => ?_⟩
  · rw [savedAlphas_append, saved, saved', List.append_nil]
  · obtain ⟨still, none⟩ := quiet' idle
    obtain ⟨before, nothing⟩ := quiet still
    exact ⟨before, by rw [layers_append, none, nothing, List.append_nil]⟩

theorem savedAlphas_releases {reader : Reader} : savedAlphas reader.releases = [] := by
  refine List.filterMap_eq_nil_iff.mpr fun event member => ?_
  obtain ⟨r, _, rfl⟩ := List.mem_map.mp member
  rfl

theorem layers_releases {reader : Reader} : layers reader.releases = [] := by
  refine List.filterMap_eq_nil_iff.mpr fun event member => ?_
  obtain ⟨r, _, rfl⟩ := List.mem_map.mp member
  rfl

theorem releasePending_plain : Plain p p.releasePending.1 p.releasePending.2 :=
  ⟨rfl, ⟨rfl, rfl⟩, savedAlphas_releases, fun idle => ⟨idle, layers_releases⟩⟩

theorem lease_plain : Plain p p.lease [.acquired p.leases] :=
  ⟨rfl, ⟨rfl, rfl⟩, rfl, fun idle => ⟨idle, rfl⟩⟩

theorem rotateCopy_plain (buffer : MppBuf) (degrees budget : Nat) (answer : RotateAnswer) :
    Plain p (p.rotateCopy buffer degrees budget answer).2.1
    (p.rotateCopy buffer degrees budget answer).2.2 := by
  have same : ∀ {q : VideoPlane}, q.owned = p.owned →
      q.alphaSaved = p.alphaSaved ∧ q.savedAlpha = p.savedAlpha → q.submitted = p.submitted →
      Plain p q [] := fun owned alpha submitted =>
    ⟨owned, alpha, rfl, fun idle => ⟨submitted.symm.trans idle, rfl⟩⟩
  unfold VideoPlane.rotateCopy
  dsimp only
  repeat' split
  all_goals first | exact same rfl ⟨rfl, rfl⟩ rfl | skip
  · exact ⟨rfl, ⟨rfl, rfl⟩, rfl, fun idle => ⟨idle, rfl⟩⟩
  · cases p.pending.lease <;> exact ⟨rfl, ⟨rfl, rfl⟩, rfl, fun idle => ⟨idle, rfl⟩⟩
  · exact ⟨rfl, ⟨rfl, rfl⟩, rfl, fun idle => ⟨idle, rfl⟩⟩

theorem savedAlphas_layer {data : LayerData} : savedAlphas (a.events (.layer data)) = [] := by
  unfold UpdateAnswer.events UpdateAnswer.sync
  repeat' split
  all_goals rfl

theorem showLayer_plain {x y : Nat} : Plain p (p.showLayer x y width height a).2.1
    (p.showLayer x y width height a).2.2 := by
  unfold VideoPlane.showLayer
  dsimp only
  split
  · refine ⟨rfl, ⟨rfl, rfl⟩, ?_, nofun⟩
    rw [savedAlphas_append, savedAlphas_layer, savedAlphas_releases]
    rfl
  · exact ⟨rfl, ⟨rfl, rfl⟩, savedAlphas_layer, nofun⟩

theorem present_plain :
    Plain p (p.present source column row width height degrees budget answer a).2.1
      (p.present source column row width height degrees budget answer a).2.2 := by
  unfold VideoPlane.present
  dsimp only
  split
  · exact ⟨rfl, ⟨rfl, rfl⟩, rfl, fun idle => ⟨idle, rfl⟩⟩
  rcases acquire_cases p source with unknown | refused | ⟨buffer, taken⟩
  · rw [unknown]
    exact releasePending_plain
  · rw [refused]
    exact lease_plain.append releasePending_plain
  · rw [taken]
    simp only
    have rotated := lease_plain.append (rotateCopy_plain (p := p.lease) buffer degrees
      budget answer)
    split
    · exact lease_plain.append showLayer_plain
    split
    · exact lease_plain.append releasePending_plain
    split
    · exact rotated.append showLayer_plain
    split
    · exact rotated
    · exact rotated.append releasePending_plain

theorem layers_alpha {config : AlphaConfig} : layers (a.events (.alpha config)) = [] := by
  unfold UpdateAnswer.events UpdateAnswer.sync
  repeat' split
  all_goals rfl

theorem savedAlphas_alpha {config : AlphaConfig} : savedAlphas (a.events (.alpha config)) = [] := by
  unfold UpdateAnswer.events UpdateAnswer.sync
  repeat' split
  all_goals rfl

theorem layers_layer_confirmed {data : LayerData} (confirmed : a.confirmed = true) :
    layers (a.events (.layer data)) = [(data, true)] := by
  simp only [UpdateAnswer.confirmed, Bool.and_eq_true] at confirmed
  obtain ⟨⟨update, first⟩, second⟩ := confirmed
  simp [UpdateAnswer.events, UpdateAnswer.sync, update, first, layers]

/-- `hide` says nothing about alpha, and ends with the disabled layer. -/
structure Hidden (p next : VideoPlane) (events : List PlaneEvent) : Prop where
  owned : next.owned = p.owned
  alpha : next.alphaSaved = p.alphaSaved ∧ next.savedAlpha = p.savedAlpha
  saved : savedAlphas events = []
  quiet : next.submitted = false → p.submitted = false ∧ layers events = [] ∨
    layers events = [(.disabled, true)]

theorem hide_hidden : Hidden p (p.hide a).2.1 (p.hide a).2.2 := by
  unfold VideoPlane.hide
  dsimp only
  split
  · exact ⟨rfl, ⟨rfl, rfl⟩, rfl, fun idle => .inl ⟨idle, rfl⟩⟩
  split
  · exact ⟨rfl, ⟨rfl, rfl⟩, rfl, fun idle => .inl ⟨idle, rfl⟩⟩
  rename_i submitted
  split
  · rename_i confirmed
    refine ⟨rfl, ⟨rfl, rfl⟩, ?_, fun _ => .inr ?_⟩
    · rw [savedAlphas_append, savedAlphas_append, savedAlphas_layer, savedAlphas_releases,
        savedAlphas_releases]
      rfl
    · rw [layers_append, layers_append, layers_layer_confirmed confirmed, layers_releases,
        layers_releases]
      rfl
  · exact ⟨rfl, ⟨rfl, rfl⟩, savedAlphas_layer, fun idle => absurd idle (by simpa using submitted)⟩

end

/-- The last update of the layer disabled it, if there was one. -/
def Disabled (trace : List PlaneEvent) : Prop :=
  ∀ data done, (layers trace).getLast? = some (data, done) → data = .disabled ∧ done = true

/-- What was saved is written back at the end, and two waits follow. -/
def Restored (trace : List PlaneEvent) : Prop :=
  ∀ config, .alphaSaved config ∈ trace → ∃ before, trace = before ++ [.alpha config true,
    .vsync true, .vsync true, .closed]

/-- The observer follows the plane through every call. -/
structure Follows (trace : List PlaneEvent) (p : VideoPlane) : Prop where
  lawful : Scanout.start.Lawful trace
  tracks : Tracks (observe trace) p
  rests : Rests p
  saved : p.owned = true → savedAlphas trace = if p.alphaSaved then [p.savedAlpha] else []
  disabled : p.submitted = false → Disabled trace
  gone : p.owned = false → p.submitted = false ∧ p.geFault = false ∧ Restored trace

theorem observe_append : observe (trace ++ events) = (observe trace).after events :=
  Scanout.after_append

theorem Disabled.quiet (disabled : Disabled trace) (quiet : layers events = []) :
    Disabled (trace ++ events) := by
  unfold Disabled
  rw [layers_append, quiet, List.append_nil]
  exact disabled

theorem Disabled.hidden (hidden : layers events = [(.disabled, true)]) :
    Disabled (trace ++ events) := by
  intro data done last
  rw [layers_append, hidden, List.getLast?_concat] at last
  cases last
  exact ⟨rfl, rfl⟩

section
variable {read : Option AlphaConfig} {a restore : UpdateAnswer}

theorem Follows.plain (follows : Follows trace p) (owned : p.owned = true)
    (plain : Plain p next events) (leads : Leads (observe trace) events next) (rests : Rests next) :
    Follows (trace ++ events) next := by
  obtain ⟨kept, ⟨saving, alpha⟩, none, quiet⟩ := plain
  refine ⟨follows.lawful.append leads.1, ?_, rests, fun _ => ?_, fun idle => ?_, fun freed => ?_⟩
  · rw [observe_append]
    exact leads.2
  · rw [savedAlphas_append, none, List.append_nil, saving, alpha]
    exact follows.saved owned
  · obtain ⟨before, nothing⟩ := quiet idle
    exact (follows.disabled before).quiet nothing
  · rw [kept, owned] at freed
    cases freed

theorem Follows.hide (follows : Follows trace p) (owned : p.owned = true) :
    Follows (trace ++ (p.hide a).2.2) (p.hide a).2.1 := by
  obtain ⟨kept, ⟨saving, alpha⟩, none, quiet⟩ := hide_hidden (p := p) (a := a)
  have leads := follows.tracks.hide (a := a)
  refine ⟨follows.lawful.append leads.1, ?_, follows.rests.hide, fun _ => ?_, fun idle => ?_,
    fun freed => ?_⟩
  · rw [observe_append]
    exact leads.2
  · rw [savedAlphas_append, none, List.append_nil, saving, alpha]
    exact follows.saved owned
  · rcases quiet idle with ⟨before, nothing⟩ | hidden
    · exact (follows.disabled before).quiet nothing
    · exact .hidden hidden
  · rw [kept, owned] at freed
    cases freed

theorem Follows.enableUiAlpha (follows : Follows trace p) (owned : p.owned = true) :
    Follows (trace ++ (p.enableUiAlpha read a).2.2) (p.enableUiAlpha read a).2.1 := by
  have leads := follows.tracks.enableUiAlpha (a := a) read
  have rests := follows.rests.enableUiAlpha read a
  rcases enableUiAlpha_cases p read a with same | ⟨unsaved, old, broken, same⟩
  · rw [same, List.append_nil]
    exact follows
  · rw [same] at leads rests ⊢
    refine ⟨follows.lawful.append leads.1, ?_, rests, fun _ => ?_, fun idle => ?_, fun freed => ?_⟩
    · rw [observe_append]
      exact leads.2
    · rw [savedAlphas_append, follows.saved owned, unsaved]
      exact congrArg (old :: ·) savedAlphas_alpha
    · exact (follows.disabled idle).quiet layers_alpha
    · exact absurd (owned.symm.trans freed) (by simp)

theorem restoreAlpha_success (done : (p.restoreAlpha a).1 = true) :
    p.alphaSaved = false ∧ (p.restoreAlpha a).2 = (p, []) ∨
    p.alphaSaved = true ∧ (p.restoreAlpha a).2 =
      ({ p with alphaSaved := false, alphaFault := false },
        [.alpha p.savedAlpha true, .vsync true, .vsync true]) := by
  unfold VideoPlane.restoreAlpha at done ⊢
  dsimp only at done ⊢
  split at done
  · rename_i unsaved
    exact .inl ⟨by simpa using unsaved, by rw [if_pos unsaved]⟩
  rename_i saved
  split at done
  · rename_i confirmed
    refine .inr ⟨by simpa using saved, ?_⟩
    rw [if_neg saved, if_pos confirmed]
    simp only [UpdateAnswer.confirmed, Bool.and_eq_true] at confirmed
    obtain ⟨⟨update, first⟩, second⟩ := confirmed
    simp [UpdateAnswer.events, UpdateAnswer.sync, update, first, second]
  · cases done

theorem restoreAlpha_failure (failed : ¬(p.restoreAlpha a).1 = true) :
    (p.restoreAlpha a).2 = ({ p with alphaFault := true }, a.events (.alpha p.savedAlpha)) := by
  unfold VideoPlane.restoreAlpha at failed ⊢
  dsimp only at failed ⊢
  split
  · rename_i unsaved
    rw [if_pos unsaved] at failed
    exact absurd rfl failed
  rename_i saved
  rw [if_neg saved] at failed
  split
  · rename_i confirmed
    rw [if_pos confirmed] at failed
    exact absurd rfl failed
  · rfl

theorem Follows.close (follows : Follows trace p) (owned : p.owned = true) :
    Follows (trace ++ (p.close a restore).2.2) (p.close a restore).2.1 := by
  have hidden := follows.hide (a := a) owned
  have kept := (hide_hidden (p := p) (a := a)).owned.trans owned
  unfold VideoPlane.close
  dsimp only
  split
  · exact hidden
  rename_i success
  obtain ⟨idle, working⟩ := hide_success (by simpa using success)
  have leads := hidden.tracks.restoreAlpha (a := restore)
  have rests := hidden.rests.restoreAlpha (a := restore)
  split
  · rename_i failed
    rw [restoreAlpha_failure (by simpa using failed)] at leads rests ⊢
    rw [← List.append_assoc]
    refine ⟨hidden.lawful.append leads.1, ?_, rests, fun _ => ?_, fun _ => ?_, fun freed => ?_⟩
    · rw [observe_append]
      exact leads.2
    · rw [savedAlphas_append, savedAlphas_alpha, List.append_nil]
      exact hidden.saved kept
    · exact (hidden.disabled idle).quiet layers_alpha
    · exact absurd (kept.symm.trans freed) (by simp)
  · rename_i done
    have saved := hidden.saved kept
    have closing : ∀ {q : VideoPlane} {told : List PlaneEvent},
        Leads (observe (trace ++ (p.hide a).2.2)) told q →
        Leads (observe (trace ++ (p.hide a).2.2)) (told ++ [.closed]) { q with owned := false } := by
      rintro q told ⟨lawful, tracks⟩
      obtain ⟨safe, leases, numbers, held, apart, showing, touched, copies, sized⟩ := tracks
      refine .append lawful ⟨⟨trivial, trivial⟩, safe, leases, numbers,
        held, apart, showing, touched, copies, sized⟩
    have last := closing leads
    rw [List.append_assoc, ← List.append_assoc]
    refine ⟨hidden.lawful.append last.1, ?_, ⟨rests.pending, rests.calm⟩, nofun, fun _ => ?_,
      fun _ => ?_⟩
    · rw [observe_append]
      exact last.2
    · rcases restoreAlpha_success (by simpa using done) with ⟨_, same⟩ | ⟨_, same⟩ <;> rw [same]
      · exact (hidden.disabled idle).quiet rfl
      · exact (hidden.disabled idle).quiet rfl
    · rcases restoreAlpha_success (by simpa using done) with ⟨unsaved, same⟩ | ⟨known, same⟩ <;>
        rw [same]
      · refine ⟨idle, working, fun config member => ?_⟩
        have before : config ∈ savedAlphas (trace ++ (p.hide a).2.2) := by
          refine List.mem_filterMap.mpr ⟨.alphaSaved config, ?_, rfl⟩
          simpa using member
        rw [saved, unsaved] at before
        cases before
      · refine ⟨idle, working, fun config member => ⟨trace ++ (p.hide a).2.2, ?_⟩⟩
        have before : config ∈ savedAlphas (trace ++ (p.hide a).2.2) := by
          refine List.mem_filterMap.mpr ⟨.alphaSaved config, ?_, rfl⟩
          simpa using member
        rw [saved, known, if_pos rfl, List.mem_singleton] at before
        rw [before]
        rfl

theorem Follows.step {call : PlaneCall} (follows : Follows trace p)
    (moved : p.perform call = some (next, events)) : Follows (trace ++ events) next := by
  unfold VideoPlane.perform at moved
  split at moved
  · cases moved
  rename_i given
  have owned : p.owned = true := by simpa using given
  cases call with
  | enableUiAlpha read a =>
      obtain ⟨rfl, rfl⟩ := Prod.ext_iff.mp (Option.some.inj moved)
      exact follows.enableUiAlpha owned
  | present source x y width height degrees budget answer a =>
      obtain ⟨rfl, rfl⟩ := Prod.ext_iff.mp (Option.some.inj moved)
      exact follows.plain owned present_plain (follows.tracks.present follows.rests)
        follows.rests.present
  | hide a =>
      obtain ⟨rfl, rfl⟩ := Prod.ext_iff.mp (Option.some.inj moved)
      exact follows.hide owned
  | close a restore =>
      obtain ⟨rfl, rfl⟩ := Prod.ext_iff.mp (Option.some.inj moved)
      exact follows.close owned

end

theorem opened_follows {screenWidth screenHeight floor : Nat} {screenArgb geV11 useGe2d : Bool} :
    Follows [] (VideoPlane.opened screenWidth screenHeight screenArgb floor geV11 useGe2d) := by
  refine ⟨trivial, ⟨Scanout.Safe.start, rfl, rfl, ?_, ?_, nofun, nofun, rfl, fun _ => rfl⟩,
    ⟨fun _ _ => rfl, fun _ => ⟨rfl, rfl⟩⟩, fun _ => rfl, fun _ => nofun, nofun⟩
  · intro r
    simp [observe, Scanout.start, VideoPlane.opened]
  · intro r member
    simp [VideoPlane.opened] at member

theorem plane_follows {Allowed : List PlaneEvent → VideoPlane → PlaneCall → Prop}
    (reached : planeMachine.Reaches Allowed trace p) : Follows trace p := by
  refine reached.invariant Follows ?_ ?_
  · rintro _ ⟨_, _, _, _, _, _, rfl⟩
    exact opened_follows
  · intro trace before call after events follows _ moved
    exact follows.step moved

/-! ## Accounts -/

/-- How often the resource was taken. -/
def acquisitions (r : Resource) (trace : List PlaneEvent) : Nat :=
  trace.countP fun event => match event with
    | .acquired lease => r = .lease lease
    | .allocated copy _ _ => r = .copy copy
    | _ => false

structure Accounts (trace : List PlaneEvent) : Prop where
  balance : ∀ r, trace.count (.released r) + (observe trace).held.count r = acquisitions r trace
  leases : ∀ n, acquisitions (.lease n) trace = if n < (observe trace).leased then 1 else 0
  copies : ∀ n, acquisitions (.copy n) trace = if n < (observe trace).copied then 1 else 0

theorem acquisitions_append : acquisitions r (events ++ more) =
    acquisitions r events + acquisitions r more := List.countP_append

theorem acquisitions_acquired :
    acquisitions r [.acquired n] = if r = .lease n then 1 else 0 := by
  simp [acquisitions, List.countP_cons]

theorem acquisitions_allocated :
    acquisitions r [.allocated n bytes budget] = if r = .copy n then 1 else 0 := by
  simp [acquisitions, List.countP_cons]

theorem numbered_succ {n taken : Nat} :
    (if n < taken then 1 else 0) + (if n = taken then 1 else 0) =
      if n < taken + 1 then 1 else 0 := by
  rcases Nat.lt_trichotomy n taken with below | same | above
  · rw [if_pos below, if_neg (by omega), if_pos (by omega)]
  · rw [if_neg (by omega), if_pos same, if_pos (by omega)]
  · rw [if_neg (by omega), if_neg (by omega), if_neg (by omega)]

theorem Accounts.quiet {event : PlaneEvent} (accounts : Accounts trace)
    (unreleased : ∀ r, event ≠ .released r) (untaken : ∀ r, acquisitions r [event] = 0)
    (held : (observe (trace ++ [event])).held = (observe trace).held)
    (leased : (observe (trace ++ [event])).leased = (observe trace).leased)
    (copied : (observe (trace ++ [event])).copied = (observe trace).copied) :
    Accounts (trace ++ [event]) := by
  refine ⟨fun r => ?_, fun n => ?_, fun n => ?_⟩
  · rw [List.count_append, held, acquisitions_append, untaken, Nat.add_zero,
      List.count_singleton, if_neg (by simpa using unreleased r), Nat.add_zero]
    exact accounts.balance r
  · rw [acquisitions_append, untaken, leased]
    exact accounts.leases n
  · rw [acquisitions_append, untaken, copied]
    exact accounts.copies n

theorem Accounts.step {event : PlaneEvent} (accounts : Accounts trace)
    (permits : (observe trace).Permits event) : Accounts (trace ++ [event]) := by
  have after : observe (trace ++ [event]) = (observe trace).step event := observe_append
  cases event with
  | acquired lease =>
      obtain rfl : lease = (observe trace).leased := permits
      obtain ⟨balance, leases, copies⟩ := accounts
      refine ⟨fun r => ?_, fun n => ?_, fun n => ?_⟩
      · have before := balance r
        rw [List.count_append, acquisitions_append, acquisitions_acquired, after]
        simp only [Scanout.step, List.count_cons, List.count_nil, beq_iff_eq, reduceCtorEq,
          if_false]
        by_cases same : r = .lease (observe trace).leased
        · simp only [same, if_true] at before ⊢
          omega
        · simp only [same, Ne.symm same, if_false]
          omega
      · rw [acquisitions_append, acquisitions_acquired, after, leases n]
        simp only [Scanout.step, Resource.lease.injEq]
        exact numbered_succ
      · rw [acquisitions_append, acquisitions_acquired, after, copies n]
        simp only [reduceCtorEq, if_false, Nat.add_zero]
        rfl
  | allocated copy bytes budget =>
      obtain ⟨rfl, _⟩ : copy = (observe trace).copied ∧ _ := permits
      obtain ⟨balance, leases, copies⟩ := accounts
      refine ⟨fun r => ?_, fun n => ?_, fun n => ?_⟩
      · have before := balance r
        rw [List.count_append, acquisitions_append, acquisitions_allocated, after]
        simp only [Scanout.step, List.count_cons, List.count_nil, beq_iff_eq, reduceCtorEq,
          if_false]
        by_cases same : r = .copy (observe trace).copied
        · simp only [same, if_true] at before ⊢
          omega
        · simp only [same, Ne.symm same, if_false]
          omega
      · rw [acquisitions_append, acquisitions_allocated, after, leases n]
        simp only [reduceCtorEq, if_false, Nat.add_zero]
        rfl
      · rw [acquisitions_append, acquisitions_allocated, after, copies n]
        simp only [Scanout.step, Resource.copy.injEq]
        exact numbered_succ
  | released freed =>
      obtain ⟨held, _⟩ := permits
      obtain ⟨balance, leases, copies⟩ := accounts
      refine ⟨fun r => ?_, fun n => ?_, fun n => ?_⟩
      · have before := balance r
        have none : acquisitions r [.released freed] = 0 := by simp [acquisitions]
        rw [List.count_append, acquisitions_append, after, none]
        simp only [Scanout.step, List.count_cons, List.count_nil, List.count_erase, beq_iff_eq,
          PlaneEvent.released.injEq]
        by_cases same : freed = r
        · have inside := List.count_pos_iff.mpr held
          simp only [same, if_true] at inside ⊢
          omega
        · simp only [same, if_false]
          omega
      · rw [acquisitions_append, after, leases n]
        simp [Scanout.step, acquisitions]
      · rw [acquisitions_append, after, copies n]
        simp [Scanout.step, acquisitions]
  | rotated touched done =>
      refine accounts.quiet nofun (fun r => by simp [acquisitions]) ?_ ?_ ?_ <;> rw [after] <;>
        simp only [Scanout.step] <;> split <;> rfl
  | vsync done =>
      refine accounts.quiet nofun (fun r => by simp [acquisitions]) ?_ ?_ ?_ <;> rw [after] <;>
        simp only [Scanout.step] <;> repeat' split
      all_goals rfl
  | layer data done | alphaSaved config | alpha config done | closed =>
      exact accounts.quiet (fun r => nofun) (fun r => by simp [acquisitions]) (by rw [after]; rfl)
        (by rw [after]; rfl) (by rw [after]; rfl)

theorem Accounts.lawful (accounts : Accounts trace) (lawful : (observe trace).Lawful events) :
    Accounts (trace ++ events) := by
  induction events generalizing trace with
  | nil => simpa using accounts
  | cons event rest ih =>
      have next := ih (accounts.step lawful.1) (by
        rw [observe_append]
        exact lawful.2)
      simpa using next

/-- What the display or the graphics engine may read stays held, copies stay within
the budget, and a plane that closes has given everything back. -/
theorem video_plane_scanout_safe (reached : planeMachine.Reaches Machine.Always trace p) :
    (∀ before after, trace = before ++ after →
      (∀ r, r ∈ (observe before).showing ∨ r ∈ (observe before).touched →
        acquisitions r before = 1 ∧ .released r ∉ before) ∧
      (observe before).alive ≤ (observe before).budget) ∧
    (∀ r, trace.count (.released r) ≤ acquisitions r trace ∧ acquisitions r trace ≤ 1) ∧
    (p.owned = false → (∀ r, trace.count (.released r) = acquisitions r trace) ∧
      Disabled trace ∧ (observe trace).showing = [] ∧ Restored trace) := by
  obtain ⟨lawful, tracks, rests, _, disabled, gone⟩ := plane_follows reached
  have empty : Accounts [] := by
    refine ⟨fun r => ?_, fun n => ?_, fun n => ?_⟩ <;> simp [observe, Scanout.start, acquisitions]
  have once : ∀ {before : List PlaneEvent}, Accounts before → ∀ r, acquisitions r before ≤ 1 := by
    intro before accounts r
    cases r with
    | lease n =>
        rw [accounts.leases n]
        split <;> omega
    | copy n =>
        rw [accounts.copies n]
        split <;> omega
  have all : Accounts trace := empty.lawful lawful
  refine ⟨?_, fun r => ⟨?_, once all r⟩, fun freed => ?_⟩
  · rintro before after rfl
    have first := lawful.left
    have safe : (observe before).Safe := Scanout.Safe.start.after first
    have accounts : Accounts before := empty.lawful first
    refine ⟨fun r read => ?_, safe.bounded⟩
    have held := List.count_pos_iff.mpr (read.elim (safe.showing r) (safe.touched r))
    have balance := accounts.balance r
    have single := once accounts r
    refine ⟨by omega, fun member => ?_⟩
    have before := List.count_pos_iff.mpr member
    omega
  · have balance := all.balance r
    omega
  · obtain ⟨idle, working, restored⟩ := gone freed
    obtain ⟨current, sound⟩ := rests.calm idle
    have pending := rests.pending sound working
    have none : ∀ r, r ∉ (observe trace).held := by
      intro r
      rw [tracks.held r, current, pending]
      simp
    refine ⟨fun r => ?_, disabled idle, ?_, restored⟩
    · have balance := all.balance r
      rw [List.count_eq_zero_of_not_mem (none r)] at balance
      exact balance
    · refine List.eq_nil_iff_forall_not_mem.mpr fun r member => ?_
      rcases tracks.showing r member with inside | ⟨broken, _⟩
      · simp [current] at inside
      · rw [sound] at broken
        cases broken

/-- A grey image of 16 by 16 pixels. -/
def greySource (address : Nat) : VideoSource :=
  .rgb {
    address := address
    width := 16
    height := 16
    stride := 64
    capacity := 1024
    format := some .rgb }

/-- The update and both waits succeed. -/
def UpdateAnswer.done : UpdateAnswer where
  update := true
  first := true
  second := true

/-- A rotation into the copy at the address. -/
def RotateAnswer.into (address : Nat) : RotateAnswer where
  geOpen := true
  copy := some address
  bitblt := true
  emit := true
  sync := true

/-- A frame with per-pixel alpha, a rotated frame that replaces it after one wait
failed, and the close. -/
def rotatedCalls : List PlaneCall :=
  [.enableUiAlpha (some { ui := true, enable := 0, mode := .global, value := 128 }) .done,
    .present (greySource 4096) 0 0 16 16 0 0 (.into 0) .done,
    .present (greySource 8192) 0 0 16 16 90 4096 (.into 16384)
      { UpdateAnswer.done with second := false },
    .close { UpdateAnswer.done with first := false } .done,
    .close .done .done]

theorem video_plane_scanout_safe_rotated :
    ∃ (trace : List PlaneEvent) (p : VideoPlane), planeMachine.Reaches Machine.Always trace p ∧
      p.owned = false ∧
      (.alphaSaved { ui := true, enable := 0, mode := .global, value := 128 }) ∈ trace ∧
      p.leases = 2 ∧ p.copies = 1 ∧ Restored trace := by
  let start := VideoPlane.opened 320 240 true 4096 false true
  obtain ⟨⟨p, trace⟩, executed⟩ : ∃ last, planeMachine.execute start rotatedCalls = some last :=
    Option.isSome_iff_exists.mp (by decide)
  have shown : (planeMachine.execute start rotatedCalls).map (fun last => (last.1.owned,
      decide ((.alphaSaved { ui := true, enable := 0, mode := .global, value := 128 }) ∈ last.2),
      last.1.leases, last.1.copies)) = some (false, true, 2, 1) := by decide
  rw [executed] at shown
  simp only [Option.map_some, Option.some.injEq, Prod.mk.injEq, decide_eq_true_eq] at shown
  obtain ⟨freed, saved, leases, copies⟩ := shown
  have initial : planeMachine.Initial start := ⟨_, _, _, _, _, _, rfl⟩
  have reached : planeMachine.Reaches Machine.Always trace p :=
    (Machine.Reaches.start initial).execute executed
  have safe := video_plane_scanout_safe reached
  exact ⟨trace, p, reached, freed, saved, leases, copies, (safe.2.2 freed).2.2.2⟩

end LvglAic.Video
