import LvglAic.Machine.Run

/-! # Leased objects

A producer is asked to retain what an object shows.  The owner hands the object
to readers and retires it at some point; the last reader, or the owner when there
is none, gives it back to the producer and frees it.
-/

namespace LvglAic.Leases

/-- What happens to the object that is made at the ticket-th asking of a producer. -/
inductive Event where
  | retained (ticket context : ℕ) (answer : Bool)
  | admitted (ticket : ℕ)
  | letGo (ticket : ℕ)
  | retired (ticket : ℕ)
  | released (ticket context : ℕ)
  | freed (ticket : ℕ)
deriving DecidableEq, Repr

def Event.ticket : Event → ℕ
  | .retained t _ _ | .admitted t | .letGo t | .retired t | .released t _ | .freed t => t

/-! ## The life of an object -/

inductive Life where
  | absent
  | refused
  | live (context readers : ℕ) (retired : Bool)
  | released
  | gone
  | broken
deriving DecidableEq, Repr

/-- The life of an object after an event of its own. -/
def Life.advance (life : Life) : Event → Life
  | .retained _ context answer =>
      match life with
      | .absent => if answer then .live context 0 false else .refused
      | _ => .broken
  | .admitted _ =>
      match life with
      | .live context readers false => .live context (readers + 1) false
      | _ => .broken
  | .letGo _ =>
      match life with
      | .live context (readers + 1) retired => .live context readers retired
      | _ => .broken
  | .retired _ =>
      match life with
      | .live context readers false => .live context readers true
      | _ => .broken
  | .released _ given =>
      match life with
      | .live context 0 true => if given = context then .released else .broken
      | _ => .broken
  | .freed _ =>
      match life with
      | .refused => .gone
      | .released => .gone
      | _ => .broken

def life (ticket : ℕ) (trace : List Event) : Life :=
  trace.foldl (fun life event => if event.ticket = ticket then life.advance event else life) .absent

/-- What the events before an event have to say for it. -/
def Guard (before : List Event) : Event → Prop
  | .retained t _ _ => ∀ event ∈ before, event.ticket ≠ t
  | .admitted t => (∃ context, .retained t context true ∈ before) ∧ .retired t ∉ before ∧
      ∀ context, .released t context ∉ before
  | .letGo t => before.count (.letGo t) < before.count (.admitted t)
  | .retired t => (∃ context, .retained t context true ∈ before) ∧ .retired t ∉ before
  | .released t context => .retained t context true ∈ before ∧ .retired t ∈ before ∧
      before.count (.letGo t) = before.count (.admitted t) ∧
      ∀ other, .released t other ∉ before
  | .freed t => .freed t ∉ before ∧ ((∃ context, .retained t context false ∈ before) ∨
      ∃ context, .released t context ∈ before)

/-- What a life says of the events so far. -/
def Told (t : ℕ) (trace : List Event) : Life → Prop
  | .absent => ∀ event ∈ trace, event.ticket ≠ t
  | .refused => (∃ context, .retained t context false ∈ trace) ∧
      (∀ context, .retained t context true ∉ trace) ∧ .freed t ∉ trace
  | .live context readers retired => .retained t context true ∈ trace ∧
      (∀ other, .retained t other true ∈ trace → other = context) ∧
      (∀ other, .retained t other false ∉ trace) ∧ (retired = true ↔ .retired t ∈ trace) ∧
      trace.count (.admitted t) = trace.count (.letGo t) + readers ∧
      (∀ other, .released t other ∉ trace) ∧ .freed t ∉ trace
  | .released => .freed t ∉ trace ∧ (∃ context, .released t context ∈ trace) ∧
      ∀ context, .retained t context true ∈ trace → .released t context ∈ trace
  | .gone => .freed t ∈ trace ∧
      ∀ context, .retained t context true ∈ trace → .released t context ∈ trace
  | .broken => True

section
variable {t : ℕ} {trace : List Event} {event : Event}

theorem life_append {more : List Event} : life t (trace ++ more) =
    more.foldl (fun life event => if event.ticket = t then life.advance event else life)
      (life t trace) := List.foldl_append

theorem life_snoc (own : event.ticket = t) :
    life t (trace ++ [event]) = (life t trace).advance event := by
  rw [life_append, List.foldl_cons, List.foldl_nil, if_pos own]

theorem life_next {state : Life} (before : life t trace = state) (own : event.ticket = t) :
    life t (trace ++ [event]) = state.advance event := by
  rw [life_snoc own, before]

theorem life_other (other : event.ticket ≠ t) : life t (trace ++ [event]) = life t trace := by
  rw [life_append, List.foldl_cons, List.foldl_nil, if_neg other]

theorem broken_advance : Life.broken.advance event = .broken := by
  cases event <;> rfl

theorem life_broken {more : List Event} (broken : life t trace = .broken) :
    life t (trace ++ more) = .broken := by
  induction more generalizing trace with
  | nil => rwa [List.append_nil]
  | cons event rest ih =>
      rw [List.append_cons]
      apply ih
      by_cases own : event.ticket = t
      · rw [life_snoc own, broken, broken_advance]
      · rw [life_other own, broken]

theorem Told.other {state : Life} (told : Told t trace state) (other : event.ticket ≠ t) :
    Told t (trace ++ [event]) state := by
  have absent : ∀ own : Event, own.ticket = t → (own ∈ trace ++ [event] ↔ own ∈ trace) := by
    intro own same
    rw [List.mem_append, List.mem_singleton, or_iff_left]
    rintro rfl
    exact other same
  have counts : ∀ own : Event, own.ticket = t → (trace ++ [event]).count own = trace.count own := by
    intro own same
    rw [List.count_append, List.count_singleton, if_neg, Nat.add_zero]
    rw [beq_iff_eq]
    rintro rfl
    exact other same
  have retained : ∀ context answer, .retained t context answer ∈ trace ++ [event] ↔
    .retained t context answer ∈ trace := fun context answer => absent _ rfl
  have retired : .retired t ∈ trace ++ [event] ↔ .retired t ∈ trace := absent _ rfl
  have released : ∀ context, .released t context ∈ trace ++ [event] ↔
    .released t context ∈ trace := fun context => absent _ rfl
  have freed : .freed t ∈ trace ++ [event] ↔ .freed t ∈ trace := absent _ rfl
  have admitted := counts (.admitted t) rfl
  have letGo := counts (.letGo t) rfl
  cases state with
  | absent =>
      intro found member
      rcases List.mem_append.mp member with before | last
      · exact told found before
      · rw [List.mem_singleton.mp last]
        exact other
  | refused => simpa only [Told, retained, freed] using told
  | live context readers _ =>
      simpa only [Told, retained, retired, released, freed, admitted, letGo] using told
  | released => simpa only [Told, retained, released, freed] using told
  | gone => simpa only [Told, retained, released, freed] using told
  | broken => trivial

theorem Told.retain {context : ℕ} (told : Told t trace .absent) :
    Told t (trace ++ [.retained t context true]) (.live context 0 false) ∧
      Guard trace (.retained t context true) := by
  have fresh : ∀ own : Event, own.ticket = t → own ∉ trace :=
    fun own same member => told own member same
  have letGo := List.count_eq_zero_of_not_mem (fresh (.letGo t) rfl)
  have admitted := List.count_eq_zero_of_not_mem (fresh (.admitted t) rfl)
  refine ⟨⟨?_, ?_, ?_, ?_, ?_, ?_, ?_⟩, told⟩
  · exact List.mem_append_right _ (List.mem_singleton_self _)
  · intro other member
    rcases List.mem_append.mp member with before | last
    · exact absurd before (fresh _ rfl)
    · cases List.mem_singleton.mp last
      rfl
  · intro other
    simpa using fresh (.retained t other false) rfl
  · simpa using fresh (.retired t) rfl
  · simp [letGo, admitted]
  · intro other
    simpa using fresh (.released t other) rfl
  · simpa using fresh (.freed t) rfl

theorem Told.refuse {context : ℕ} (told : Told t trace .absent) :
    Told t (trace ++ [.retained t context false]) .refused ∧
      Guard trace (.retained t context false) := by
  have fresh : ∀ own : Event, own.ticket = t → own ∉ trace :=
    fun own same member => told own member same
  refine ⟨⟨⟨context, ?_⟩, ?_, ?_⟩, told⟩
  · exact List.mem_append_right _ (List.mem_singleton_self _)
  · intro other
    simpa using fresh (.retained t other true) rfl
  · simpa using fresh (.freed t) rfl

theorem Told.dropRefused (told : Told t trace .refused) :
    Told t (trace ++ [.freed t]) .gone ∧ Guard trace (.freed t) := by
  obtain ⟨refused, never, kept⟩ := told
  refine ⟨⟨?_, ?_⟩, kept, .inl refused⟩
  · exact List.mem_append_right _ (List.mem_singleton_self _)
  · intro context member
    exact absurd (by simpa using member) (never context)

theorem Told.enroll {context readers : ℕ} (told : Told t trace (.live context readers false)) :
    Told t (trace ++ [.admitted t]) (.live context (readers + 1) false) ∧
      Guard trace (.admitted t) := by
  obtain ⟨retained, only, never, retired, count, released, freed⟩ := told
  have open_ : .retired t ∉ trace := fun member => Bool.false_ne_true (retired.mpr member)
  refine ⟨⟨?_, ?_, ?_, ?_, ?_, ?_, ?_⟩, ⟨context, retained⟩, open_, released⟩
  · exact List.mem_append_left _ retained
  · simpa using only
  · simpa using never
  · simpa using open_
  · simp [count]
    omega
  · simpa using released
  · simpa using freed

theorem Told.letGo {context readers : ℕ} {retired : Bool}
    (told : Told t trace (.live context (readers + 1) retired)) :
    Told t (trace ++ [.letGo t]) (.live context readers retired) ∧ Guard trace (.letGo t) := by
  obtain ⟨retained, only, never, again, count, released, freed⟩ := told
  refine ⟨⟨?_, ?_, ?_, ?_, ?_, ?_, ?_⟩, ?_⟩
  · exact List.mem_append_left _ retained
  · simpa using only
  · simpa using never
  · simpa using again
  · simp [count]
    omega
  · simpa using released
  · simpa using freed
  · change trace.count (.letGo t) < trace.count (.admitted t)
    omega

theorem Told.retire {context readers : ℕ} (told : Told t trace (.live context readers false)) :
    Told t (trace ++ [.retired t]) (.live context readers true) ∧ Guard trace (.retired t) := by
  obtain ⟨retained, only, never, retired, count, released, freed⟩ := told
  have open_ : .retired t ∉ trace := fun member => Bool.false_ne_true (retired.mpr member)
  refine ⟨⟨?_, ?_, ?_, ?_, ?_, ?_, ?_⟩, ⟨context, retained⟩, open_⟩
  · exact List.mem_append_left _ retained
  · simpa using only
  · simpa using never
  · simp
  · simpa using count
  · simpa using released
  · simpa using freed

theorem Told.release {context : ℕ} (told : Told t trace (.live context 0 true)) :
    Told t (trace ++ [.released t context]) .released ∧ Guard trace (.released t context) := by
  obtain ⟨retained, only, never, retired, count, released, freed⟩ := told
  refine ⟨⟨?_, ⟨context, ?_⟩, ?_⟩, retained, retired.mp rfl, ?_, released⟩
  · simpa using freed
  · exact List.mem_append_right _ (List.mem_singleton_self _)
  · intro other member
    have same := only other (by simpa using member)
    rw [same]
    exact List.mem_append_right _ (List.mem_singleton_self _)
  · omega

theorem Told.drop (told : Told t trace .released) :
    Told t (trace ++ [.freed t]) .gone ∧ Guard trace (.freed t) := by
  obtain ⟨freed, released, every⟩ := told
  refine ⟨⟨?_, ?_⟩, freed, .inr released⟩
  · exact List.mem_append_right _ (List.mem_singleton_self _)
  · intro context member
    exact List.mem_append_left _ (every context (by simpa using member))

/-- One event of the object: the life tells of it too, and its guard holds. -/
theorem Told.own {state : Life} (told : Told t trace state) (own : event.ticket = t)
    (kept : state.advance event ≠ .broken) :
    Told t (trace ++ [event]) (state.advance event) ∧ Guard trace event := by
  cases event with
  | retained ticket context answer =>
      obtain rfl : ticket = t := own
      cases state <;> cases answer <;> first | exact absurd rfl kept | skip
      · exact told.refuse
      · exact told.retain
  | admitted ticket =>
      obtain rfl : ticket = t := own
      rcases state with _ | _ | ⟨context, readers, _ | _⟩ | _ | _ | _ <;>
        first | exact absurd rfl kept | skip
      exact told.enroll
  | letGo ticket =>
      obtain rfl : ticket = t := own
      rcases state with _ | _ | ⟨context, _ | readers, retired⟩ | _ | _ | _ <;>
        first | exact absurd rfl kept | skip
      exact told.letGo
  | retired ticket =>
      obtain rfl : ticket = t := own
      rcases state with _ | _ | ⟨context, readers, _ | _⟩ | _ | _ | _ <;>
        first | exact absurd rfl kept | skip
      exact told.retire
  | released ticket given =>
      obtain rfl : ticket = t := own
      rcases state with _ | _ | ⟨context, _ | readers, _ | _⟩ | _ | _ | _ <;>
        first | exact absurd rfl kept | skip
      by_cases same : given = context
      · subst same
        have next : (Life.live given 0 true).advance (.released ticket given) = .released :=
          if_pos rfl
        rw [next]
        exact told.release
      · exact absurd (if_neg same) kept
  | freed ticket =>
      obtain rfl : ticket = t := own
      cases state <;> first | exact absurd rfl kept | skip
      · exact told.dropRefused
      · exact told.drop

/-- Of a trace whose lives are unbroken, every event follows what it needs. -/
theorem guarded_of_unbroken (unbroken : ∀ t, life t trace ≠ .broken) :
    (∀ t, Told t trace (life t trace)) ∧ Guarded Guard trace := by
  induction trace using List.reverseRecOn with
  | nil => exact ⟨fun t event member => absurd member List.not_mem_nil, Guarded.nil⟩
  | append_singleton trace event ih =>
      have before : ∀ t, life t trace ≠ .broken := fun t broken =>
        unbroken t (life_broken broken)
      obtain ⟨told, guarded⟩ := ih before
      have last := unbroken event.ticket
      rw [life_snoc rfl] at last
      obtain ⟨next, guard⟩ := (told event.ticket).own rfl last
      refine ⟨?_, guarded.snoc guard⟩
      intro t
      by_cases own : event.ticket = t
      · rw [← own, life_snoc rfl]
        exact next
      · rw [life_other own]
        exact (told t).other own

end

/-! ## A pool of objects -/

/-- A listed object; the ticket is not stored by the program. -/
structure Shared (Data : Type*) where
  address : ℕ
  data : Data
  context : ℕ
  readers : UInt32
  retired : Bool
  ticket : ℕ
deriving DecidableEq

/-- The list of objects, newest first, with the handles that readers hold: a handle is the
address of its object. -/
structure Pool (Data : Type*) where
  objects : List (Shared Data)
  tickets : ℕ
  leases : List ℕ
  opens : List ℕ
deriving DecidableEq

namespace Pool

variable {Data : Type*}

def empty : Pool Data := ⟨[], 0, [], []⟩

def object (pool : Pool Data) (address : ℕ) : Option (Shared Data) :=
  pool.objects.find? fun o => o.address = address

/-- Writes an object through its address. -/
def put (pool : Pool Data) (next : Shared Data) : Pool Data :=
  { pool with objects := pool.objects.map fun o => if o.address = next.address then next else o }

/-- Takes an object out of the list. -/
def unlink (pool : Pool Data) (address : ℕ) : Pool Data :=
  { pool with objects := pool.objects.eraseP fun o => o.address = address }

/-- A new object at the storage that the allocator gave, unless the producer refuses. -/
def create (pool : Pool Data) (data : Data) (context : ℕ) (storage : Option ℕ) (retains : Bool) :
    Pool Data × List Event :=
  match storage with
  | none => (pool, [])
  | some address =>
      if retains then
        ({ pool with
            objects := ⟨address, data, context, 0, false, pool.tickets⟩ :: pool.objects
            tickets := pool.tickets + 1 },
          [.retained pool.tickets context true])
      else
        ({ pool with tickets := pool.tickets + 1 },
          [.retained pool.tickets context false, .freed pool.tickets])

/-- One reader more. -/
def enroll (pool : Pool Data) (o : Shared Data) : Pool Data × List Event :=
  (pool.put { o with readers := o.readers + 1 }, [.admitted o.ticket])

/-- One reader less; the last reader of a retired object gives it back. -/
def letGo (pool : Pool Data) (address : ℕ) : Pool Data × List Event :=
  match pool.object address with
  | none => (pool, [])
  | some o =>
      if o.readers = 0 then (pool, [])
      else if o.retired && o.readers - 1 = 0 then
        (pool.unlink address, [.letGo o.ticket, .released o.ticket o.context, .freed o.ticket])
      else (pool.put { o with readers := o.readers - 1 }, [.letGo o.ticket])

/-- The owner retires an object; without readers it gives it back at once. -/
def retire (pool : Pool Data) (o : Shared Data) : Pool Data × List Event :=
  if o.retired then (pool, [])
  else if o.readers = 0 then
    (pool.unlink o.address, [.retired o.ticket, .released o.ticket o.context, .freed o.ticket])
  else (pool.put { o with retired := true }, [.retired o.ticket])

/-- What every run of a pool keeps. -/
structure Kept (trace : List Event) (pool : Pool Data) : Prop where
  addresses : (pool.objects.map Shared.address).Nodup
  numbers : (pool.objects.map Shared.ticket).Nodup
  unmade : ∀ t, pool.tickets ≤ t → life t trace = .absent
  made : ∀ t, t < pool.tickets → life t trace = .gone ∨ ∃ o ∈ pool.objects, o.ticket = t
  living : ∀ o ∈ pool.objects, o.ticket < pool.tickets ∧
    life o.ticket trace = .live o.context o.readers.toNat o.retired
  waiting : ∀ o ∈ pool.objects, o.retired = true → o.readers ≠ 0
  held : ∀ o ∈ pool.objects,
    o.readers.toNat = pool.leases.count o.address + pool.opens.count o.address
  alive : ∀ a, a ∈ pool.leases ∨ a ∈ pool.opens → ∃ o ∈ pool.objects, o.address = a

section
variable {pool next : Pool Data} {o other fresh : Shared Data} {address : ℕ}
  {trace events : List Event} {leases opens : List ℕ}

theorem object_some (found : pool.object address = some o) :
    o ∈ pool.objects ∧ o.address = address := by
  unfold object at found
  have holds := List.find?_some found
  exact ⟨List.mem_of_find?_eq_some found, of_decide_eq_true holds⟩

theorem Kept.same_address (kept : Kept trace pool) (member : o ∈ pool.objects)
    (also : other ∈ pool.objects) (same : o.address = other.address) : o = other :=
  List.inj_on_of_nodup_map kept.addresses member also same

theorem Kept.object_eq (kept : Kept trace pool) (member : o ∈ pool.objects) :
    pool.object o.address = some o := by
  cases found : pool.object o.address with
  | none =>
      have missing := List.find?_eq_none.mp found o member
      simp at missing
  | some other =>
      obtain ⟨also, same⟩ := object_some found
      rw [kept.same_address also member same]

theorem mem_put (member : o ∈ pool.objects) (same : fresh.address = o.address) :
    other ∈ (pool.put fresh).objects ↔
      other = fresh ∨ (other ∈ pool.objects ∧ other.address ≠ o.address) := by
  unfold put
  rw [List.mem_map]
  constructor
  · rintro ⟨found, inside, rfl⟩
    split
    · exact .inl rfl
    · rename_i apart
      rw [same] at apart
      exact .inr ⟨inside, apart⟩
  · rintro (rfl | ⟨inside, apart⟩)
    · exact ⟨o, member, if_pos same.symm⟩
    · rw [← same] at apart
      exact ⟨other, inside, if_neg apart⟩

theorem put_addresses :
    (pool.put fresh).objects.map Shared.address = pool.objects.map Shared.address := by
  unfold put
  rw [List.map_map]
  refine List.map_congr_left fun found _ => ?_
  rw [Function.comp_apply]
  split
  · rename_i same
    exact same.symm
  · rfl

theorem Kept.put_numbers (kept : Kept trace pool) (member : o ∈ pool.objects)
    (same : fresh.address = o.address) (number : fresh.ticket = o.ticket) :
    (pool.put fresh).objects.map Shared.ticket = pool.objects.map Shared.ticket := by
  unfold put
  rw [List.map_map]
  refine List.map_congr_left fun found inside => ?_
  rw [Function.comp_apply]
  split
  · rename_i equal
    rw [kept.same_address inside member (equal.trans same), number]
  · rfl

theorem mem_eraseP_address {objects : List (Shared Data)}
    (nodup : (objects.map Shared.address).Nodup) :
    other ∈ objects.eraseP (fun o => o.address = address) ↔
      other ∈ objects ∧ other.address ≠ address := by
  induction objects with
  | nil => simp
  | cons first rest ih =>
      obtain ⟨new, nodup⟩ := List.nodup_cons.mp nodup
      by_cases same : first.address = address
      · rw [List.eraseP_cons_of_pos (by simpa using same)]
        subst same
        constructor
        · intro inside
          refine ⟨List.mem_cons_of_mem _ inside, ?_⟩
          intro equal
          exact new (equal ▸ List.mem_map_of_mem inside)
        · rintro ⟨inside, apart⟩
          rcases List.mem_cons.mp inside with rfl | later
          · exact absurd rfl apart
          · exact later
      · rw [List.eraseP_cons_of_neg (by simpa using same), List.mem_cons, List.mem_cons, ih nodup]
        constructor
        · rintro (rfl | ⟨later, apart⟩)
          · exact ⟨.inl rfl, same⟩
          · exact ⟨.inr later, apart⟩
        · rintro ⟨rfl | later, apart⟩
          · exact .inl rfl
          · exact .inr ⟨later, apart⟩

/-! ## What the operations keep -/

theorem life_others {t : ℕ} (others : ∀ event ∈ events, event.ticket ≠ t) :
    life t (trace ++ events) = life t trace := by
  induction events generalizing trace with
  | nil => rw [List.append_nil]
  | cons event rest ih =>
      rw [List.append_cons, ih fun found member => others found (List.mem_cons_of_mem _ member)]
      exact life_other (others event List.mem_cons_self)

/-- A retired object without readers is given back. -/
theorem life_given {t context : ℕ} {event : Event}
    (before : life t (trace ++ [event]) = .live context 0 true) :
    life t (trace ++ [event, .released t context, .freed t]) = .gone := by
  have given : life t (trace ++ [event] ++ [.released t context]) = .released :=
    (life_next before rfl).trans (if_pos rfl)
  rw [List.append_cons, List.append_cons]
  exact life_next given rfl

/-- An object is written, with the handles at its address. -/
theorem Kept.write (kept : Kept trace pool) (member : o ∈ pool.objects)
    (same : fresh.address = o.address) (number : fresh.ticket = o.ticket)
    (own : ∀ event ∈ events, event.ticket = o.ticket)
    (lives : life o.ticket (trace ++ events) =
      .live fresh.context fresh.readers.toNat fresh.retired)
    (waits : fresh.retired = true → fresh.readers ≠ 0)
    (counts : fresh.readers.toNat = leases.count o.address + opens.count o.address)
    (others : ∀ a, a ≠ o.address →
      leases.count a = pool.leases.count a ∧ opens.count a = pool.opens.count a) :
    Kept (trace ++ events)
      { pool.put fresh with leases := leases, opens := opens } where
  addresses := by
    change ((pool.put fresh).objects.map Shared.address).Nodup
    rw [put_addresses]
    exact kept.addresses
  numbers := by
    change ((pool.put fresh).objects.map Shared.ticket).Nodup
    rw [kept.put_numbers member same number]
    exact kept.numbers
  unmade := by
    intro t above
    have apart : t ≠ o.ticket := by
      have below := (kept.living o member).1
      change pool.tickets ≤ t at above
      omega
    rw [life_others fun event inside => own event inside ▸ apart.symm]
    exact kept.unmade t above
  made := by
    intro t below
    by_cases mine : t = o.ticket
    · exact .inr ⟨fresh, (mem_put member same).mpr (.inl rfl), number.trans mine.symm⟩
    · rw [life_others fun event inside => own event inside ▸ Ne.symm mine]
      rcases kept.made t below with gone | ⟨found, inside, rfl⟩
      · exact .inl gone
      · refine .inr ⟨found, (mem_put member same).mpr (.inr ⟨inside, ?_⟩), rfl⟩
        intro equal
        exact mine (by rw [kept.same_address inside member equal])
  living := by
    intro found inside
    rcases (mem_put member same).mp inside with rfl | ⟨before, apart⟩
    · rw [number]
      exact ⟨(kept.living o member).1, lives⟩
    · obtain ⟨below, live⟩ := kept.living found before
      refine ⟨below, ?_⟩
      rw [life_others, live]
      intro event among equal
      have tickets : found.ticket = o.ticket := equal.symm.trans (own event among)
      exact apart (congrArg Shared.address
        (List.inj_on_of_nodup_map kept.numbers before member tickets))
  waiting := by
    intro found inside
    rcases (mem_put member same).mp inside with rfl | ⟨before, _⟩
    · exact waits
    · exact kept.waiting found before
  held := by
    intro found inside
    rcases (mem_put member same).mp inside with rfl | ⟨before, apart⟩
    · change _ = leases.count _ + opens.count _
      rw [same]
      exact counts
    · obtain ⟨leased, opened⟩ := others found.address apart
      change _ = leases.count _ + opens.count _
      rw [leased, opened]
      exact kept.held found before
  alive := by
    intro a handle
    by_cases mine : a = o.address
    · exact ⟨fresh, (mem_put member same).mpr (.inl rfl), same.trans mine.symm⟩
    · obtain ⟨leased, opened⟩ := others a mine
      have before : a ∈ pool.leases ∨ a ∈ pool.opens := by
        rw [← List.count_pos_iff, ← List.count_pos_iff, ← leased, ← opened, List.count_pos_iff,
          List.count_pos_iff]
        exact handle
      obtain ⟨found, inside, rfl⟩ := kept.alive a before
      exact ⟨found, (mem_put member same).mpr (.inr ⟨inside, mine⟩), rfl⟩

/-- An object is given back, after the last handle at its address. -/
theorem Kept.drop (kept : Kept trace pool) (member : o ∈ pool.objects)
    (own : ∀ event ∈ events, event.ticket = o.ticket)
    (gone : life o.ticket (trace ++ events) = .gone)
    (counts : leases.count o.address + opens.count o.address = 0)
    (others : ∀ a, a ≠ o.address →
      leases.count a = pool.leases.count a ∧ opens.count a = pool.opens.count a) :
    Kept (trace ++ events)
      { pool.unlink o.address with leases := leases, opens := opens } where
  addresses := kept.addresses.sublist (List.eraseP_sublist.map _)
  numbers := kept.numbers.sublist (List.eraseP_sublist.map _)
  unmade := by
    intro t above
    have apart : t ≠ o.ticket := by
      have below := (kept.living o member).1
      change pool.tickets ≤ t at above
      omega
    rw [life_others fun event inside => own event inside ▸ apart.symm]
    exact kept.unmade t above
  made := by
    intro t below
    by_cases mine : t = o.ticket
    · rw [mine]
      exact .inl gone
    · rw [life_others fun event inside => own event inside ▸ Ne.symm mine]
      rcases kept.made t below with lost | ⟨found, inside, rfl⟩
      · exact .inl lost
      · refine .inr ⟨found, (mem_eraseP_address kept.addresses).mpr ⟨inside, ?_⟩, rfl⟩
        intro equal
        exact mine (by rw [kept.same_address inside member equal])
  living := by
    intro found inside
    obtain ⟨before, apart⟩ := (mem_eraseP_address kept.addresses).mp inside
    obtain ⟨below, live⟩ := kept.living found before
    refine ⟨below, ?_⟩
    rw [life_others, live]
    intro event among equal
    have tickets : found.ticket = o.ticket := equal.symm.trans (own event among)
    exact apart (congrArg Shared.address
      (List.inj_on_of_nodup_map kept.numbers before member tickets))
  waiting := by
    intro found inside
    exact kept.waiting found ((mem_eraseP_address kept.addresses).mp inside).1
  held := by
    intro found inside
    obtain ⟨before, apart⟩ := (mem_eraseP_address kept.addresses).mp inside
    obtain ⟨leased, opened⟩ := others found.address apart
    change _ = leases.count _ + opens.count _
    rw [leased, opened]
    exact kept.held found before
  alive := by
    intro a handle
    have apart : a ≠ o.address := by
      rintro rfl
      have held : 0 < leases.count o.address ∨ 0 < opens.count o.address := by
        rw [List.count_pos_iff, List.count_pos_iff]
        exact handle
      omega
    obtain ⟨leased, opened⟩ := others a apart
    have before : a ∈ pool.leases ∨ a ∈ pool.opens := by
      rw [← List.count_pos_iff, ← List.count_pos_iff, ← leased, ← opened, List.count_pos_iff,
        List.count_pos_iff]
      exact handle
    obtain ⟨found, inside, rfl⟩ := kept.alive a before
    exact ⟨found, (mem_eraseP_address kept.addresses).mpr ⟨inside, apart⟩, rfl⟩

theorem count_one_more {readers : UInt32} (room : ¬readers = 0xffffffff) :
    (readers + 1).toNat = readers.toNat + 1 := by
  have below : readers.toNat < 2 ^ 32 - 1 := by
    have bound := readers.toNat_lt
    by_contra full
    exact room (UInt32.toNat_inj.mp (by change readers.toNat = 2 ^ 32 - 1; omega))
  rw [UInt32.toNat_add]
  exact Nat.mod_eq_of_lt (by change readers.toNat + 1 < 2 ^ 32; omega)

theorem count_one_less {readers : UInt32} (some1 : ¬readers = 0) :
    (readers - 1).toNat + 1 = readers.toNat := by
  have positive : readers.toNat ≠ 0 := fun zero => some1 (UInt32.toNat_inj.mp zero)
  have least : (1 : UInt32) ≤ readers := UInt32.le_iff_toNat_le.mpr (by
    change 1 ≤ readers.toNat
    omega)
  rw [UInt32.toNat_sub_of_le _ _ least]
  change readers.toNat - 1 + 1 = readers.toNat
  omega

/-- A new object at fresh storage, or a refusal that frees it. -/
theorem Kept.create (kept : Kept trace pool) {data : Data} {context : ℕ} {storage : Option ℕ}
    {retains : Bool} (unused : ∀ a, storage = some a → ∀ o ∈ pool.objects, o.address ≠ a) :
    Kept (trace ++ (pool.create data context storage retains).2)
      (pool.create data context storage retains).1 := by
  cases storage with
  | none =>
      rw [show (pool.create data context none retains) = (pool, []) from rfl, List.append_nil]
      exact kept
  | some a =>
      have idle : ∀ t, t ≠ pool.tickets → ∀ event : Event, event.ticket = pool.tickets →
          event.ticket ≠ t := fun t apart event mine same => apart (same.symm.trans mine)
      have unmade := kept.unmade pool.tickets (Nat.le_refl _)
      cases retains with
      | false =>
          change Kept (trace ++ [.retained pool.tickets context false, .freed pool.tickets])
            { pool with tickets := pool.tickets + 1 }
          have others : ∀ t, t ≠ pool.tickets →
              life t (trace ++ [.retained pool.tickets context false, .freed pool.tickets]) =
                life t trace := by
            intro t apart
            apply life_others
            intro event member
            rcases List.mem_cons.mp member with rfl | last
            · exact idle t apart _ rfl
            · rw [List.mem_singleton.mp last]
              exact idle t apart _ rfl
          refine ⟨kept.addresses, kept.numbers, ?_, ?_, ?_, kept.waiting, kept.held, kept.alive⟩
          · intro t above
            change pool.tickets + 1 ≤ t at above
            rw [others t (by omega)]
            exact kept.unmade t (by omega)
          · intro t below
            change t < pool.tickets + 1 at below
            by_cases mine : t = pool.tickets
            · have first : life pool.tickets (trace ++ [.retained pool.tickets context false]) =
                .refused := life_next unmade rfl
              rw [mine, List.append_cons]
              exact .inl (life_next first rfl)
            · rw [others t mine]
              exact kept.made t (by omega)
          · intro o member
            obtain ⟨below, live⟩ := kept.living o member
            rw [others _ (by omega)]
            exact ⟨Nat.lt_succ_of_lt below, live⟩
      | true =>
          change Kept (trace ++ [.retained pool.tickets context true])
            { pool with
              objects := ⟨a, data, context, 0, false, pool.tickets⟩ :: pool.objects
              tickets := pool.tickets + 1 }
          have others : ∀ t, t ≠ pool.tickets →
              life t (trace ++ [.retained pool.tickets context true]) = life t trace :=
            fun t apart => life_other (idle t apart _ rfl)
          have apart := unused a rfl
          refine ⟨?_, ?_, ?_, ?_, ?_, ?_, ?_, ?_⟩
          · refine List.nodup_cons.mpr ⟨?_, kept.addresses⟩
            intro member
            obtain ⟨o, inside, same⟩ := List.mem_map.mp member
            exact apart o inside same
          · refine List.nodup_cons.mpr ⟨?_, kept.numbers⟩
            intro member
            obtain ⟨o, inside, same⟩ := List.mem_map.mp member
            exact Nat.ne_of_lt (kept.living o inside).1 same
          · intro t above
            change pool.tickets + 1 ≤ t at above
            rw [others t (by omega)]
            exact kept.unmade t (by omega)
          · intro t below
            change t < pool.tickets + 1 at below
            by_cases mine : t = pool.tickets
            · exact .inr ⟨_, List.mem_cons_self, mine.symm⟩
            · rw [others t mine]
              rcases kept.made t (by omega) with gone | ⟨o, inside, same⟩
              · exact .inl gone
              · exact .inr ⟨o, List.mem_cons_of_mem _ inside, same⟩
          · intro o member
            rcases List.mem_cons.mp member with rfl | inside
            · exact ⟨Nat.lt_succ_self _, life_next unmade rfl⟩
            · obtain ⟨below, live⟩ := kept.living o inside
              rw [others _ (by omega)]
              exact ⟨Nat.lt_succ_of_lt below, live⟩
          · intro o member
            rcases List.mem_cons.mp member with rfl | inside
            · exact fun retired => absurd retired Bool.false_ne_true
            · exact kept.waiting o inside
          · intro o member
            rcases List.mem_cons.mp member with rfl | inside
            · have missing : ∀ handles : List ℕ, (∀ h ∈ handles, h ∈ pool.leases ∨ h ∈ pool.opens) →
                  handles.count a = 0 := by
                intro handles among
                refine List.count_eq_zero_of_not_mem fun member => ?_
                obtain ⟨o, inside, same⟩ := kept.alive a (among a member)
                exact apart o inside same
              change 0 = pool.leases.count a + pool.opens.count a
              rw [missing _ fun _ member => .inl member, missing _ fun _ member => .inr member]
            · exact kept.held o inside
          · intro h handle
            obtain ⟨o, inside, same⟩ := kept.alive h handle
            exact ⟨o, List.mem_cons_of_mem _ inside, same⟩

/-- A reader is admitted, with its handle. -/
theorem Kept.enroll (kept : Kept trace pool) (member : o ∈ pool.objects)
    (live : o.retired = false) (room : ¬o.readers = 0xffffffff)
    (counts : leases.count o.address + opens.count o.address =
      pool.leases.count o.address + pool.opens.count o.address + 1)
    (others : ∀ a, a ≠ o.address →
      leases.count a = pool.leases.count a ∧ opens.count a = pool.opens.count a) :
    Kept (trace ++ (pool.enroll o).2) { (pool.enroll o).1 with leases := leases, opens := opens } := by
  unfold Pool.enroll
  have more := count_one_more room
  refine kept.write member rfl rfl ?_ ?_ ?_ ?_ others
  · intro event among
    rw [List.mem_singleton.mp among]
    rfl
  · have before := (kept.living o member).2
    rw [live] at before
    rw [more, live]
    exact life_next before rfl
  · intro retired
    rw [live] at retired
    exact absurd retired Bool.false_ne_true
  · rw [more, kept.held o member, counts]

/-- A reader lets go of its handle. -/
theorem Kept.letGo (kept : Kept trace pool) (handle : address ∈ pool.leases ∨ address ∈ pool.opens)
    (counts : leases.count address + opens.count address + 1 =
      pool.leases.count address + pool.opens.count address)
    (others : ∀ a, a ≠ address →
      leases.count a = pool.leases.count a ∧ opens.count a = pool.opens.count a) :
    Kept (trace ++ (pool.letGo address).2)
      { (pool.letGo address).1 with leases := leases, opens := opens } := by
  obtain ⟨o, member, rfl⟩ := kept.alive address handle
  have held := kept.held o member
  have live := (kept.living o member).2
  have some1 : ¬o.readers = 0 := by
    intro none
    rw [none] at held
    change 0 = _ at held
    omega
  have less := count_one_less some1
  have first : life o.ticket (trace ++ [.letGo o.ticket]) =
      .live o.context (o.readers - 1).toNat o.retired := by
    rw [← less] at live
    exact life_next live rfl
  unfold Pool.letGo
  rw [kept.object_eq member]
  simp only [if_neg some1]
  split
  · rename_i last
    simp only [Bool.and_eq_true, decide_eq_true_eq] at last
    obtain ⟨retired, zero⟩ := last
    refine kept.drop member ?_ ?_ ?_ others
    · intro event among
      simp only [List.mem_cons, List.not_mem_nil, or_false] at among
      rcases among with rfl | rfl | rfl <;> rfl
    · rw [retired, zero] at first
      exact life_given first
    · rw [zero] at less
      change 0 + 1 = _ at less
      omega
  · rename_i more
    simp only [Bool.and_eq_true, decide_eq_true_eq, not_and] at more
    refine kept.write member rfl rfl ?_ first more ?_ others
    · intro event among
      rw [List.mem_singleton.mp among]
      rfl
    · change (o.readers - 1).toNat = _
      omega

/-- The owner retires an object. -/
theorem Kept.retire (kept : Kept trace pool) (member : o ∈ pool.objects) :
    Kept (trace ++ (pool.retire o).2) (pool.retire o).1 := by
  have live := (kept.living o member).2
  have held := kept.held o member
  unfold Pool.retire
  split
  · rw [List.append_nil]
    exact kept
  · rename_i open_
    rw [Bool.not_eq_true] at open_
    have first : life o.ticket (trace ++ [.retired o.ticket]) =
        .live o.context o.readers.toNat true := by
      rw [open_] at live
      exact life_next live rfl
    split
    · rename_i none
      rw [none] at held first
      change 0 = _ at held
      refine kept.drop member ?_ ?_ held.symm fun a _ => ⟨rfl, rfl⟩
      · intro event among
        simp only [List.mem_cons, List.not_mem_nil, or_false] at among
        rcases among with rfl | rfl | rfl <;> rfl
      · exact life_given first
    · rename_i some1
      refine kept.write member rfl rfl ?_ first (fun _ => some1) held fun a _ => ⟨rfl, rfl⟩
      intro event among
      rw [List.mem_singleton.mp among]
      rfl

/-! Each admission has a handle of one of two kinds, and each handle is let go of once. -/

theorem Kept.lease (kept : Kept trace pool) (member : o ∈ pool.objects) (live : o.retired = false)
    (room : ¬o.readers = 0xffffffff) :
    Kept (trace ++ (pool.enroll o).2)
      { (pool.enroll o).1 with leases := o.address :: pool.leases } := by
  refine kept.enroll member live room ?_ ?_
  · change (o.address :: pool.leases).count o.address + pool.opens.count o.address = _
    rw [List.count_cons_self]
    omega
  · intro a apart
    exact ⟨List.count_cons_of_ne apart.symm, rfl⟩

theorem Kept.open_ (kept : Kept trace pool) (member : o ∈ pool.objects) (live : o.retired = false)
    (room : ¬o.readers = 0xffffffff) :
    Kept (trace ++ (pool.enroll o).2)
      { (pool.enroll o).1 with opens := o.address :: pool.opens } := by
  refine kept.enroll member live room ?_ ?_
  · change pool.leases.count o.address + (o.address :: pool.opens).count o.address = _
    rw [List.count_cons_self]
    omega
  · intro a apart
    exact ⟨rfl, List.count_cons_of_ne apart.symm⟩

theorem letGo_handles (pool : Pool Data) (address : ℕ) :
    (pool.letGo address).1.leases = pool.leases ∧ (pool.letGo address).1.opens = pool.opens := by
  unfold Pool.letGo
  split
  · exact ⟨rfl, rfl⟩
  · split
    · exact ⟨rfl, rfl⟩
    · split <;> exact ⟨rfl, rfl⟩

theorem Kept.close (kept : Kept trace pool) (handle : address ∈ pool.opens) :
    Kept (trace ++ (pool.letGo address).2)
      { (pool.letGo address).1 with opens := (pool.letGo address).1.opens.erase address } := by
  have some1 := List.count_pos_iff.mpr handle
  have left : Kept (trace ++ (pool.letGo address).2)
      { (pool.letGo address).1 with leases := pool.leases, opens := pool.opens.erase address } := by
    refine kept.letGo (.inr handle) ?_ ?_
    · rw [List.count_erase_self]
      omega
    · intro a apart
      exact ⟨rfl, List.count_erase_of_ne apart⟩
  obtain ⟨leases, opens⟩ := letGo_handles pool address
  rw [opens]
  rwa [← leases] at left

/-- What an object shows may change. -/
theorem Kept.store (kept : Kept trace pool) (member : o ∈ pool.objects) (data : Data) :
    Kept trace (pool.put { o with data := data }) := by
  have none : ∀ event ∈ ([] : List Event), event.ticket = o.ticket :=
    fun _ among => absurd among List.not_mem_nil
  have lives : life o.ticket (trace ++ []) = .live o.context o.readers.toNat o.retired := by
    rw [List.append_nil]
    exact (kept.living o member).2
  have same : ({ o with data := data } : Shared Data).address = o.address := rfl
  have written := kept.write member same rfl none lives (kept.waiting o member)
    (kept.held o member) fun a _ => ⟨rfl, rfl⟩
  rwa [List.append_nil] at written

/-- What holds of every run of a pool: each object is given back and freed once, after it was
retired and its readers let go, and the count of an object is that of its handles. -/
structure Safe (trace : List Event) (pool : Pool Data) : Prop where
  order : Guarded Guard trace
  readers : ∀ o ∈ pool.objects,
    o.readers.toNat = pool.leases.count o.address + pool.opens.count o.address
  handles : ∀ a, a ∈ pool.leases ∨ a ∈ pool.opens → ∃ o ∈ pool.objects, o.address = a
  complete : ∀ t context, .retained t context true ∈ trace → .retired t ∈ trace →
    trace.count (.admitted t) = trace.count (.letGo t) →
    .released t context ∈ trace ∧ .freed t ∈ trace
  refused : ∀ t context, .retained t context false ∈ trace → .freed t ∈ trace

theorem Kept.safe (kept : Kept trace pool) : Safe trace pool := by
  have unbroken : ∀ t, life t trace ≠ .broken := by
    intro t
    by_cases below : t < pool.tickets
    · rcases kept.made t below with gone | ⟨o, member, rfl⟩
      · rw [gone]
        exact Life.noConfusion
      · rw [(kept.living o member).2]
        exact Life.noConfusion
    · rw [kept.unmade t (Nat.not_lt.mp below)]
      exact Life.noConfusion
  obtain ⟨told, guarded⟩ := guarded_of_unbroken unbroken
  refine ⟨guarded, kept.held, kept.alive, ?_, ?_⟩
  · intro t context retained retired balanced
    have tells := told t
    by_cases below : t < pool.tickets
    · rcases kept.made t below with gone | ⟨o, member, rfl⟩
      · rw [gone] at tells
        exact ⟨tells.2 context retained, tells.1⟩
      · rw [(kept.living o member).2] at tells
        obtain ⟨_, _, _, again, count, _⟩ := tells
        have none : o.readers.toNat = 0 := by omega
        exact absurd (UInt32.toNat_inj.mp none) (kept.waiting o member (again.mpr retired))
    · rw [kept.unmade t (Nat.not_lt.mp below)] at tells
      exact absurd rfl (tells _ retained)
  · intro t context refused
    have tells := told t
    by_cases below : t < pool.tickets
    · rcases kept.made t below with gone | ⟨o, member, rfl⟩
      · rw [gone] at tells
        exact tells.1
      · rw [(kept.living o member).2] at tells
        obtain ⟨_, _, never, _⟩ := tells
        exact absurd refused (never context)
    · rw [kept.unmade t (Nat.not_lt.mp below)] at tells
      exact absurd rfl (tells _ refused)

end

end Pool

end LvglAic.Leases
