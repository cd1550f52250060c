import RequestRouting.Dispatch.Carried
import RequestRouting.Proofs.Tour

/-!
# Where contexts lead

Where contexts carry their chain, nothing in the engine keeps a handler from running inside
itself. What keeps it from that are callbacks that go on with contexts made from the one they
are called with, from what comes back to them, or outside any chain
(`Carried.Handler.KeepsPlaces`): such a callback has no way to a handler in front of its own.

So the rest of a chain, from a place in it, comes to an end, whatever callbacks do, fail or
panic, and whatever conditions panic: with as many levels as there are handlers in that rest,
which run inside each other in the order of the tree (`Carried.next_ends`).
-/

namespace RequestRouting

variable {E W : Type}

/-! ## Handlers that are running -/

/-- The handlers that are running after a notice, where the given ones ran before. -/
def Notice.running (outer : List Address) : Notice E → List Address
  | entered address => outer ++ [address]
  | left address => if outer.getLast? = some address then outer.dropLast else outer
  | dispatching _ | called _ _ | returned _ _ | failed _ _ _ => outer

/-- The handlers that are running after notices have been given, outermost first: they have
been entered and not yet been left. -/
def running (outer : List Address) (seen : List (Notice E)) : List Address :=
  seen.foldl Notice.running outer

theorem running_append (outer : List Address) (first second : List (Notice E)) :
    running outer (first ++ second) = running (running outer first) second :=
  List.foldl_append

/-- At each point of the notices, what has begun within them is running in the order of the
first list, and at the end nothing of it is. All of them are about handlers of the second
list. -/
structure NestsIn (order about : List Address) (seen : List (Notice E)) : Prop where
  at_point : ∀ outer earlier, earlier <+: seen →
    ∃ begun, begun.Sublist order ∧ running outer earlier = outer ++ begun
  at_end : ∀ outer, running outer seen = outer
  mem_about : ∀ notice ∈ seen, ∀ address ∈ notice.address?, address ∈ about

namespace NestsIn

variable {order about : List Address} {first second seen : List (Notice E)}

theorem nil : NestsIn (E := E) order about [] := by
  refine ⟨fun outer earlier hprefix => ?_, fun outer => rfl,
    fun notice hmem => absurd hmem List.not_mem_nil⟩
  rw [List.prefix_nil.mp hprefix]
  exact ⟨[], List.nil_sublist _, (List.append_nil _).symm⟩

theorem mono {larger wider : List Address} (horder : order.Sublist larger)
    (habout : about ⊆ wider) (hnests : NestsIn order about seen) :
    NestsIn larger wider seen := by
  refine ⟨fun outer earlier hprefix => ?_, hnests.at_end, fun notice hnotice address haddress =>
    habout (hnests.mem_about notice hnotice address haddress)⟩
  obtain ⟨begun, hbegun, hrunning⟩ := hnests.at_point outer earlier hprefix
  exact ⟨begun, hbegun.trans horder, hrunning⟩

theorem append (hfirst : NestsIn order about first) (hsecond : NestsIn order about second) :
    NestsIn order about (first ++ second) := by
  refine ⟨?_, fun outer => ?_, List.forall_mem_append.mpr ⟨hfirst.mem_about, hsecond.mem_about⟩⟩
  · rintro outer earlier ⟨later, heq⟩
    rcases List.append_eq_append_iff.mp heq with ⟨between, rfl, _⟩ | ⟨between, rfl, rfl⟩
    · exact hfirst.at_point outer earlier (List.prefix_append _ _)
    · obtain ⟨begun, hbegun, hrunning⟩ := hsecond.at_point outer between (List.prefix_append _ _)
      refine ⟨begun, hbegun, ?_⟩
      rw [running_append, hfirst.at_end, hrunning]
  · rw [running_append, hfirst.at_end, hsecond.at_end]

/-- Notices that are not about the beginning or the end of an activation change nothing. -/
theorem single {notice : Notice E} (hsame : ∀ outer, notice.running outer = outer)
    (habout : ∀ address ∈ notice.address?, address ∈ about) : NestsIn order about [notice] := by
  refine ⟨fun outer earlier hprefix => ?_, hsame, List.forall_mem_singleton.mpr habout⟩
  refine ⟨[], List.nil_sublist _, ?_⟩
  rcases List.prefix_cons_iff.mp hprefix with rfl | ⟨more, rfl, hmore⟩
  · simp [running]
  · rw [List.prefix_nil.mp hmore]
    simp [running, hsame]

/-- An activation comes first of all that is running within it. -/
theorem activation {address : Address} (haddress : address ∈ about)
    (hnests : NestsIn order about seen) :
    NestsIn (address :: order) about
      (Notice.entered address :: (seen ++ [Notice.left address])) := by
  have hwhole (outer : List Address) :
      running outer (Notice.entered (E := E) address :: (seen ++ [Notice.left address])) =
        outer := by
    have hinner : running outer (Notice.entered address :: seen) = outer ++ [address] :=
      hnests.at_end (outer ++ [address])
    rw [← List.cons_append, running_append, hinner]
    simp [running, Notice.running]
  refine ⟨fun outer earlier hprefix => ?_, hwhole, ?_⟩
  · rcases List.prefix_cons_iff.mp hprefix with rfl | ⟨more, rfl, hmore⟩
    · exact ⟨[], List.nil_sublist _, (List.append_nil _).symm⟩
    · rcases List.prefix_concat_iff.mp hmore with rfl | hmore
      · exact ⟨[], List.nil_sublist _, by rw [hwhole, List.append_nil]⟩
      · obtain ⟨begun, hbegun, hrunning⟩ := hnests.at_point (outer ++ [address]) more hmore
        refine ⟨address :: begun, hbegun.cons_cons address, ?_⟩
        rw [List.append_assoc] at hrunning
        exact hrunning
  · have hown : ∀ own ∈ some address, own ∈ about := by
      rintro _ ⟨⟩
      exact haddress
    rw [List.forall_mem_cons, List.forall_mem_append, List.forall_mem_singleton]
    exact ⟨hown, hnests.mem_about, hown⟩

end NestsIn

namespace Carried

/-! ## Parts that come to an end -/

/-- Wherever the part starts, it comes to an end, with notices as `P` says. A result is as
`good` says, and `steady` says when there is one. -/
def Part.Ends {ε α : Type} (P : List (Notice E) → Prop) (good : α → Prop) (steady : Prop)
    (part : Part ε E W α) : Prop :=
  ∀ o, ∃ outcome seen world, part o = some (outcome, ⟨world, o.notices ++ seen⟩) ∧ P seen ∧
    (∀ result, outcome = .ok result → good result) ∧ (steady → outcome.isOk)

namespace Part.Ends

variable {ε δ α β : Type} {P Q : List (Notice E) → Prop} {good : α → Prop} {steady : Prop}
  {part : Part ε E W α}

theorem mono {weaker : α → Prop} (hP : ∀ seen, P seen → Q seen)
    (hgood : ∀ result, good result → weaker result) (hends : part.Ends P good steady) :
    part.Ends Q weaker steady := by
  intro o
  obtain ⟨outcome, seen, world, hpart, hseen, hresult, hok⟩ := hends o
  exact ⟨outcome, seen, world, hpart, hP seen hseen,
    fun result heq => hgood result (hresult result heq), hok⟩

theorem of_imp {settled : Prop} (himp : settled → steady) (hends : part.Ends P good steady) :
    part.Ends P good settled := by
  intro o
  obtain ⟨outcome, seen, world, hpart, hseen, hresult, hok⟩ := hends o
  exact ⟨outcome, seen, world, hpart, hseen, hresult, fun hsettled => hok (himp hsettled)⟩

theorem ofExcept (hnil : P []) {decided : Except ε α}
    (hgood : ∀ result, decided = .ok result → good result) (hsteady : steady → decided.isOk) :
    (Part.ofExcept decided : Part ε E W α).Ends P good steady := by
  intro o
  refine ⟨decided, [], o.world, ?_, hnil, hgood, hsteady⟩
  rw [List.append_nil]
  rfl

theorem fail (hnil : P []) {error : ε} (hunsteady : ¬steady) :
    (Part.fail error : Part ε E W α).Ends P good steady := by
  refine ofExcept hnil ?_ fun hsteady => absurd hsteady hunsteady
  rintro _ ⟨⟩

theorem done (hnil : P []) {result : α} (hgood : good result) :
    (Part.done result : Part ε E W α).Ends P good steady := by
  refine ofExcept hnil ?_ fun _ => rfl
  rintro _ ⟨⟩
  exact hgood

variable (happend : ∀ first second, P first → P second → P (first ++ second))

include happend

/-- What goes on however a part ends comes to an end itself. -/
theorem inAnyCase {later : β → Prop} {settled : Prop} (hends : part.Ends P good steady)
    {onward : Except ε α → Part δ E W β}
    (honward : ∀ outcome, (∀ result, outcome = .ok result → good result) →
      (steady → outcome.isOk) → (onward outcome).Ends P later settled) :
    (part.inAnyCase onward).Ends P later settled := by
  intro o
  obtain ⟨outcome, first, world, hpart, hfirst, hgood, hok⟩ := hends o
  obtain ⟨last, second, after, honwardRun, hsecond, hlater, hlast⟩ :=
    honward outcome hgood hok ⟨world, o.notices ++ first⟩
  refine ⟨last, first ++ second, after, ?_, happend _ _ hfirst hsecond, hlater, hlast⟩
  simp only [Part.inAnyCase, hpart, honwardRun, List.append_assoc]

theorem andThen {later : β → Prop} (hends : part.Ends P good steady)
    {onward : α → Part ε E W β}
    (honward : ∀ result, good result → (onward result).Ends P later steady) :
    (part.andThen onward).Ends P later steady := by
  intro o
  obtain ⟨outcome, first, world, hpart, hfirst, hgood, hok⟩ := hends o
  cases outcome with
  | error error =>
      refine ⟨.error error, first, world, ?_, hfirst, nofun, hok⟩
      simp only [Part.andThen, hpart]
  | ok result =>
      obtain ⟨last, second, after, honwardRun, hsecond, hlater, hlast⟩ :=
        honward result (hgood result rfl) ⟨world, o.notices ++ first⟩
      refine ⟨last, first ++ second, after, ?_, happend _ _ hfirst hsecond, hlater, hlast⟩
      simp only [Part.andThen, hpart, honwardRun, List.append_assoc]

theorem noting {monitor : Monitor E W} {notice : Notice E} (hnotice : P [notice])
    (hends : part.Ends P good steady) :
    (Carried.noting monitor notice part).Ends P good steady := by
  intro o
  obtain ⟨outcome, seen, world, hpart, hseen, hgood, hok⟩ := hends (monitor.observed notice o)
  refine ⟨outcome, [notice] ++ seen, world, ?_, happend _ _ hnotice hseen, hgood, hok⟩
  rw [Carried.noting, Part.changing, hpart, Monitor.observed, List.append_assoc]

end Part.Ends

/-! ## Places -/

/-- Where a context is: in which chain, and at which place of it. -/
abbrev Place := Option Address × Position

/-- Outside any chain, or in the chain at an address, at an index or behind it. -/
def Place.From (chain : Address) (index : Nat) (p : Place) : Prop :=
  p.1 = (if p.2.attached then some chain else none) ∧ (p.2.attached → index ≤ p.2.cursor)

end Carried

/-- Where the context is. -/
def Located.place (l : Located E) : Carried.Place := (l.chain, l.ctx.position)

@[simp]
theorem Located.place_update (change : Context E → Context E) (l : Located E) :
    (l.update change).place = l.place := rfl

@[simp]
theorem Located.place_ofEvent (event : E) :
    (Located.ofEvent event).place = (none, Position.detached) := rfl

namespace Carried

section From

variable {chain : Address} {index : Nat} {l : Located E}

theorem Place.From.chain_eq (hl : l.place.From chain index) :
    l.chain = if l.ctx.position.attached then some chain else none := hl.1

theorem Place.From.le_cursor (hl : l.place.From chain index)
    (hattached : l.ctx.position.attached) : index ≤ l.ctx.position.cursor := hl.2 hattached

/-- Outside any chain a context is at a place that is behind any other. -/
theorem Place.from_detached : Place.From chain index (none, .detached) := ⟨rfl, nofun⟩

theorem Place.From.mono {earlier : Nat} (hle : earlier ≤ index) (hl : l.place.From chain index) :
    l.place.From chain earlier :=
  ⟨hl.1, fun hattached => Nat.le_trans hle (hl.2 hattached)⟩

theorem Place.From.leave {inner : Located E} (hl : l.place.From chain index) :
    (inner.leave l).place.From chain index := hl

theorem Place.from_enter (l : Located E) (address : Address) :
    (l.enter address).place.From address 0 := ⟨rfl, fun _ => Nat.zero_le _⟩

theorem Place.From.select [Routable E] (hl : l.place.From chain index) (g : Guard E)
    (place : Nat) : (l.select g place).place.From chain (place + 1) :=
  ⟨hl.1, fun _ => Nat.le_refl _⟩

end From

/-- The plan goes on with contexts at places that are held and with no others, as long as all
that it gets back is at places that are held. -/
def Plan.KeepsTo (held : Place → Prop) : Plan E W → Prop
  | done l => held l.place
  | fail _ | panic _ => True
  | next l resume =>
      held l.place ∧ ∀ result : Located E, held result.place → (resume result).KeepsTo held
  | act _ resume => ∀ world, (resume world).KeepsTo held

/-- The plan returns a context, whatever comes back from the rest of the chain, unless a panic
comes out of it. -/
def Plan.Succeeds : Plan E W → Prop
  | done _ => True
  | fail _ | panic _ => False
  | next _ resume => ∀ result, (resume result).Succeeds
  | act _ resume => ∀ world, (resume world).Succeeds

namespace Handler

/-- The callback of the handler goes on with contexts made from the ones that it gets, or with
new ones outside any chain: whichever places are held, it keeps to them. -/
def KeepsPlaces (h : Handler E W) : Prop :=
  ∀ callback ∈ h.callback?, ∀ held : Place → Prop, held (none, .detached) →
    ∀ l : Located E, held l.place → (callback l).KeepsTo held

/-- Whether an exception handler takes care of a failure. Other handlers take care of none. -/
def verdict (h : Handler E W) (failure : Failure) : Verdict :=
  match h with
  | recover _ accepts _ _ => accepts failure
  | on _ _ | after _ _ | filter _ _ | group _ _ => .ok false

/-- Neither the condition of the handler nor its matcher panics. -/
def Steady (h : Handler E W) : Prop :=
  (∀ condition ∈ h.guard.condition, ∀ event, (condition event).isOk) ∧
    ∀ failure, (h.verdict failure).isOk

/-! ## The handlers of a tree -/

/-- The handlers of the chain at an address, from an index on, with their addresses, each
before the handlers inside it and these before the handlers behind it. -/
def listing : List (Handler E W) → Address → Nat → List (Address × Handler E W)
  | [], _, _ => []
  | group g handlers :: rest, chain, index =>
      (chain ++ [index], group g handlers) ::
        (listing handlers (chain ++ [index]) 0 ++ listing rest chain (index + 1))
  | h :: rest, chain, index => (chain ++ [index], h) :: listing rest chain (index + 1)

/-- The addresses of the handlers of a chain in their order. -/
def order (handlers : List (Handler E W)) (chain : Address) (index : Nat) : List Address :=
  (listing handlers chain index).map Prod.fst

/-- The number of handlers of a tree. -/
def count (root : List (Handler E W)) : Nat := (listing root [] 0).length

/-- All handlers of a tree meet a condition. -/
def All (condition : Handler E W → Prop) (root : List (Handler E W)) : Prop :=
  ∀ entry ∈ listing root [] 0, condition entry.2

theorem listing_cons (h : Handler E W) (rest : List (Handler E W)) (chain : Address)
    (index : Nat) :
    listing (h :: rest) chain index =
      (chain ++ [index], h) ::
        (listing h.inside (chain ++ [index]) 0 ++ listing rest chain (index + 1)) := by
  cases h <;> simp [listing, inside]

@[simp]
theorem order_nil (chain : Address) (index : Nat) :
    order ([] : List (Handler E W)) chain index = [] := by
  simp [order, listing]

theorem order_cons (h : Handler E W) (rest : List (Handler E W)) (chain : Address)
    (index : Nat) :
    order (h :: rest) chain index =
      (chain ++ [index]) ::
        (order h.inside (chain ++ [index]) 0 ++ order rest chain (index + 1)) := by
  rw [order, listing_cons, List.map_cons, List.map_append]
  rfl

/-- Induction over a chain and the chains inside its handlers. -/
@[elab_as_elim]
theorem chainInduction {motive : List (Handler E W) → Prop} (nil : motive [])
    (cons : ∀ h rest, motive h.inside → motive rest → motive (h :: rest)) :
    ∀ handlers, motive handlers
  | [] => nil
  | .group g handlers :: rest =>
      cons (group g handlers) rest (chainInduction nil cons handlers)
        (chainInduction nil cons rest)
  | .on g callback :: rest =>
      cons (on g callback) rest nil (chainInduction nil cons rest)
  | .after g callback :: rest =>
      cons (after g callback) rest nil (chainInduction nil cons rest)
  | .filter g callback :: rest =>
      cons (filter g callback) rest nil (chainInduction nil cons rest)
  | .recover g accepts callback clears :: rest =>
      cons (recover g accepts callback clears) rest nil (chainInduction nil cons rest)

section Listing

variable {handlers root : List (Handler E W)} {chain : Address} {index : Nat} {h : Handler E W}

theorem within_of_mem_order {a : Address} (hmem : a ∈ order handlers chain index) :
    Address.Within chain index a := by
  induction handlers using chainInduction generalizing chain index with
  | nil => simp at hmem
  | cons h rest ihInside ihRest =>
      rw [order_cons, List.mem_cons, List.mem_append] at hmem
      rcases hmem with rfl | hinside | hrest
      · exact Address.within_self chain index
      · exact (ihInside hinside).of_inside
      · exact (ihRest hrest).of_later

/-- What comes later in a chain comes later in its order. -/
theorem order_drop_sublist {place later : Nat} (hle : place ≤ later) :
    (order (handlers.drop later) chain later).Sublist
      (order (handlers.drop place) chain place) := by
  induction hle with
  | refl => exact .refl _
  | @step later hle ih =>
      refine .trans ?_ ih
      rw [← List.drop_drop (i := 1)]
      cases hrest : handlers.drop later with
      | nil => simp
      | cons h rest =>
          rw [order_cons, List.drop_one, List.tail_cons]
          exact (List.sublist_append_right _ _).cons _

/-- A handler of a chain and what comes later in it, in the order of the chain. -/
theorem order_drop_sublist_of_get (chain : Address) {place later : Nat}
    (hget : handlers[later]? = some h) (hle : place ≤ later) :
    ((chain ++ [later]) :: (order h.inside (chain ++ [later]) 0 ++
      order (handlers.drop (later + 1)) chain (later + 1))).Sublist
        (order (handlers.drop place) chain place) := by
  obtain ⟨hlt, rfl⟩ := List.getElem?_eq_some_iff.mp hget
  rw [← order_cons, ← List.drop_eq_getElem_cons hlt]
  exact order_drop_sublist hle

/-- The handlers of a chain in a tree are handlers of the tree. -/
theorem mem_listing_of_mem_chainAt (hmem : h ∈ chainAt handlers chain) (base : Address)
    (index : Nat) : ∃ a, (a, h) ∈ listing handlers base index := by
  induction chain generalizing handlers base index with
  | nil =>
      rw [chainAt] at hmem
      induction handlers generalizing index with
      | nil => cases hmem
      | cons first rest ih =>
          rw [listing_cons]
          rcases List.mem_cons.mp hmem with rfl | hrest
          · exact ⟨_, List.mem_cons_self⟩
          · obtain ⟨a, ha⟩ := ih hrest (index + 1)
            exact ⟨a, List.mem_cons_of_mem _ (List.mem_append_right _ ha)⟩
  | cons place chain ih =>
      rw [chainAt] at hmem
      split at hmem
      · rename_i outer houter
        have hinside := ih hmem
        clear hmem
        induction handlers generalizing place index with
        | nil => cases houter
        | cons first rest ihRest =>
            rw [listing_cons]
            cases place with
            | zero =>
                cases houter
                obtain ⟨a, ha⟩ := hinside (base ++ [index]) 0
                exact ⟨a, List.mem_cons_of_mem _ (List.mem_append_left _ ha)⟩
            | succ place =>
                obtain ⟨a, ha⟩ := ihRest place (index + 1) houter
                exact ⟨a, List.mem_cons_of_mem _ (List.mem_append_right _ ha)⟩
      · cases hmem

theorem All.of_mem_chainAt {condition : Handler E W → Prop} (hall : All condition root)
    (hmem : h ∈ chainAt root chain) : condition h := by
  obtain ⟨a, ha⟩ := mem_listing_of_mem_chainAt hmem [] 0
  exact hall _ ha

/-- The chain inside a handler of a chain. -/
theorem chainAt_concat (hget : (chainAt root chain)[index]? = some h) :
    chainAt root (chain ++ [index]) = h.inside := by
  induction chain generalizing root with
  | nil =>
      rw [chainAt] at hget
      rw [List.nil_append, chainAt, hget]
      exact chainAt.eq_1 _
  | cons place chain ih =>
      rw [chainAt] at hget
      rw [List.cons_append, chainAt]
      split at hget
      · exact ih hget
      · cases hget

end Listing

end Handler

/-! ## Handlers that come to an end -/

section Process

variable {P : List (Notice E) → Prop} (hnil : P [])
  (happend : ∀ first second, P first → P second → P (first ++ second))
  {held : Place → Prop} {steady : Prop}
  {next : Located E → Part PanicPayload E W (Located E)}
  (hnext : ∀ l : Located E, held l.place → (next l).Ends P (held ·.place) steady)

include hnil happend hnext

/-- A plan that keeps to places from which the rest of the chain comes to an end. -/
theorem Plan.run_ends {plan : Plan E W} (hplan : plan.KeepsTo held) :
    (plan.run next).Ends P (held ·.place) (steady ∧ plan.Succeeds) := by
  induction plan with
  | done l => exact .done hnil hplan
  | fail failure => exact .fail hnil fun hsucceeds => hsucceeds.2.elim
  | panic payload => exact .fail hnil fun hsucceeds => hsucceeds.2.elim
  | next l resume ih =>
      rw [Plan.run]
      refine (hnext l hplan.1).inAnyCase happend fun outcome hresult hok => ?_
      cases outcome with
      | ok result =>
          exact (ih result (hplan.2 result (hresult result rfl))).of_imp
            fun hsucceeds => ⟨hsucceeds.1, hsucceeds.2 result⟩
      | error payload =>
          refine .fail hnil fun hsucceeds => ?_
          cases hok hsucceeds.1
  | act update resume ih =>
      intro o
      exact (ih _ (hplan _)).of_imp (fun hsucceeds => ⟨hsucceeds.1, hsucceeds.2 _⟩)
        (o.change update)

variable (monitor : Monitor E W) {address : Address}
  (hcall : ∀ notice : Notice E, (∀ outer, notice.running outer = outer) →
    notice.address? = some address → P [notice])

include hcall

/-- A call comes to an end, and what goes on after it is at a place that is held. -/
theorem invoke_ends {callback : Callback E W} {l : Located E} (hl : held l.place)
    (hplan : (callback l).KeepsTo held) :
    (invoke monitor address callback next l).Ends P (held ·.2.place) steady := by
  refine .noting happend (hcall _ (fun _ => rfl) rfl) ?_
  refine (Plan.run_ends hnil happend hnext hplan).inAnyCase happend fun outcome hresult _ => ?_
  cases outcome with
  | ok result =>
      exact .noting happend (hcall _ (fun _ => rfl) rfl) (.done hnil (hresult result rfl))
  | error failure => exact .noting happend (hcall _ (fun _ => rfl) rfl) (.done hnil hl)

/-- A handler whose callback keeps places comes to an end if the rest of its chain and the
chain inside it do. -/
theorem process_ends {h : Handler E W} (hkeeps : h.KeepsPlaces)
    (hdetached : held (none, .detached)) (hsteady : steady → h.Steady)
    (hinner : ∀ l : Located E, (next (l.enter address)).Ends P (fun _ => True) steady)
    (hleave : ∀ inner l : Located E, held l.place → held (inner.leave l).place)
    {l : Located E} (hl : held l.place) :
    (process monitor h address next l).Ends P (held ·.place) steady := by
  have hinvoke {callback : Callback E W} (hcallback : h.callback? = some callback)
      {l : Located E} (hl : held l.place) :
      (invoke monitor address callback next l).Ends P (held ·.2.place) steady :=
    invoke_ends hnil happend hnext monitor hcall hl
      (hkeeps callback hcallback held hdetached l hl)
  cases h with
  | on g callback => exact (hinvoke rfl hl).andThen happend fun call hcall => hnext _ hcall
  | after g callback =>
      exact (hnext l hl).andThen happend fun middle hmiddle =>
        (hinvoke rfl hmiddle).andThen happend fun call hcall => .done hnil hcall
  | filter g callback =>
      refine (hinvoke rfl hl).andThen happend fun call hcall => ?_
      split
      · exact .done hnil hcall
      · exact hnext _ hcall
  | recover g accepts callback clears =>
      refine (hnext l hl).andThen happend fun middle hmiddle => ?_
      cases middle.ctx.exception with
      | none => exact .done hnil hmiddle
      | some failure =>
          have hverdict : (Part.ofExcept (accepts failure) : Part PanicPayload E W Bool).Ends P
              (fun _ => True) steady :=
            .ofExcept hnil (fun _ _ => trivial) fun hyes => (hsteady hyes).2 failure
          refine hverdict.andThen happend fun accepted _ => ?_
          cases accepted with
          | false => exact .done hnil hmiddle
          | true =>
              refine (hinvoke rfl hmiddle).andThen happend fun call hcall => .done hnil ?_
              split
              · exact hcall
              · exact hcall
  | group g handlers =>
      exact (hinner l).andThen happend fun inner _ => hnext _ (hleave inner l hl)

end Process

/-! ## The rest of a chain comes to an end -/

section Next

variable [Routable E]

/-- The handler that a context goes into is a handler of the chain, at or behind the cursor
of the context. -/
theorem upcoming?_eq_some {ctx : Context E} {handlers : List (Handler E W)} {start index : Nat}
    {h : Handler E W} (hupcoming : upcoming? ctx start handlers = .ok (some (index, h))) :
    ∃ place, index = start + place ∧ handlers[place]? = some h ∧ ctx.position.cursor ≤ index := by
  induction handlers generalizing start with
  | nil => cases hupcoming
  | cons first rest ih =>
      have hrest (hlater : upcoming? ctx (start + 1) rest = .ok (some (index, h))) :
          ∃ place, index = start + place ∧ (first :: rest)[place]? = some h ∧
            ctx.position.cursor ≤ index := by
        obtain ⟨place, rfl, hget, hcursor⟩ := ih hlater
        exact ⟨place + 1, by omega, hget, hcursor⟩
      rw [upcoming?] at hupcoming
      split at hupcoming
      · rename_i hmay
        split at hupcoming
        · cases hupcoming
        · cases hupcoming
          simp only [mayGoInto, Bool.and_eq_true, decide_eq_true_eq] at hmay
          exact ⟨0, rfl, rfl, hmay.1.1⟩
        · exact hrest hupcoming
      · exact hrest hupcoming

section Advance

variable {root : List (Handler E W)}
  {run : Handler E W → Address → Located E → Part PanicPayload E W (Located E)} {l : Located E}

/-- Outside any chain there is nothing to go on with. -/
theorem advance_of_none (hchain : l.chain = none) : advance root run l = .done l := by
  rw [advance, hchain]

variable {chain : Address} (hchain : l.chain = some chain)

include hchain

theorem advance_of_panic {payload : PanicPayload}
    (hupcoming : upcoming? l.ctx 0 (Handler.chainAt root chain) = .error payload) :
    advance root run l = .fail payload := by
  simp only [advance, hchain, hupcoming]

theorem advance_of_end
    (hupcoming : upcoming? l.ctx 0 (Handler.chainAt root chain) = .ok none) :
    advance root run l = .done (l.atEnd (Handler.chainAt root chain).length) := by
  simp only [advance, hchain, hupcoming]

theorem advance_of_upcoming {index : Nat} {h : Handler E W}
    (hupcoming : upcoming? l.ctx 0 (Handler.chainAt root chain) = .ok (some (index, h))) :
    advance root run l = run h (chain ++ [index]) (l.select h.guard index) := by
  simp only [advance, hchain, hupcoming]

end Advance

/-- Only the guards of handlers panic while a handler is looked for. -/
theorem upcoming?_isOk {ctx : Context E} {handlers : List (Handler E W)} (start : Nat)
    (hsteady : ∀ h ∈ handlers, h.Steady) : (upcoming? ctx start handlers).isOk := by
  induction handlers generalizing start with
  | nil => rfl
  | cons first rest ih =>
      obtain ⟨hfirst, hrest⟩ := List.forall_mem_cons.mp hsteady
      have haccepts : (first.guard.accepts ctx.event).isOk := by
        rw [Guard.accepts]
        split
        · cases hcondition : first.guard.condition with
          | none => rfl
          | some condition => exact hfirst.1 condition hcondition ctx.event
        · rfl
      rw [upcoming?]
      split
      · split
        · rename_i hpanic
          rw [hpanic] at haccepts
          cases haccepts
        · rfl
        · exact ih (start + 1) hrest
      · exact ih (start + 1) hrest

variable (monitor : Monitor E W) {root : List (Handler E W)}

omit [Routable E] in
/-- What runs in an activation runs inside the handler. -/
theorem activate_ends {order about : List Address} {address : Address} (habout : address ∈ about)
    {good : Located E → Prop} {steady : Prop} {part : Part PanicPayload E W (Located E)}
    (hends : part.Ends (NestsIn order about) good steady) :
    (activate monitor address part).Ends (NestsIn (address :: order) about) good steady := by
  intro o
  obtain ⟨outcome, seen, world, hpart, hseen, hgood, hok⟩ :=
    hends (monitor.observed (.entered address) o)
  refine ⟨outcome, Notice.entered address :: (seen ++ [Notice.left address]),
    monitor (.left address) world, ?_, hseen.activation habout, hgood, hok⟩
  rw [activate, noting, Part.changing, Part.inAnyCase, hpart]
  simp [noting, Part.changing, Part.ofExcept, Monitor.observed]

/-- Going on with a context comes to an end if running the handler does that it goes into. -/
theorem advance_ends {chain : Address} {index : Nat}
    (hindex : index ≤ (Handler.chainAt root chain).length) {about order : List Address}
    {run : Handler E W → Address → Located E → Part PanicPayload E W (Located E)} {l : Located E}
    (hl : l.place.From chain index)
    (hrun : ∀ place h, (Handler.chainAt root chain)[place]? = some h → index ≤ place →
      (run h (chain ++ [place]) (l.select h.guard place)).Ends (NestsIn order about)
        (·.place.From chain index) (Handler.All Handler.Steady root)) :
    (advance root run l).Ends (NestsIn order about) (·.place.From chain index)
      (Handler.All Handler.Steady root) := by
  have hchain := hl.chain_eq
  cases hattached : l.ctx.position.attached with
  | false =>
      rw [hattached, if_neg Bool.false_ne_true] at hchain
      rw [advance_of_none hchain]
      exact .done .nil hl
  | true =>
      rw [hattached, if_pos rfl] at hchain
      rcases hupcoming : upcoming? l.ctx 0 (Handler.chainAt root chain) with payload | _ | ⟨place, h⟩
      · rw [advance_of_panic hchain hupcoming]
        refine .fail .nil fun hsteady => ?_
        have hok : (upcoming? l.ctx 0 (Handler.chainAt root chain)).isOk :=
          upcoming?_isOk 0 fun h hmem => hsteady.of_mem_chainAt hmem
        rw [hupcoming] at hok
        cases hok
      · rw [advance_of_end hchain hupcoming]
        exact .done .nil ⟨hl.1, fun _ => hindex⟩
      · rw [advance_of_upcoming hchain hupcoming]
        obtain ⟨found, rfl, hget, hbehind⟩ := upcoming?_eq_some hupcoming
        rw [Nat.zero_add] at hbehind ⊢
        exact hrun found h hget (Nat.le_trans (hl.le_cursor hattached) hbehind)

/-- From a place in a chain, the rest of the chain comes to an end, with as many levels as it
has handlers. They run inside each other in the order of the tree, and the result is not in
front of the place. Without panics of conditions and matchers there is a result. -/
theorem next_ends (hkeeps : Handler.All Handler.KeepsPlaces root) (depth : Nat)
    (chain : Address) (index : Nat) (hindex : index ≤ (Handler.chainAt root chain).length)
    (hdepth : (Handler.order ((Handler.chainAt root chain).drop index) chain index).length ≤ depth)
    {l : Located E} (hl : l.place.From chain index) :
    (next monitor root depth l).Ends
      (NestsIn (Handler.order ((Handler.chainAt root chain).drop index) chain index)
        (Handler.order ((Handler.chainAt root chain).drop index) chain index))
      (·.place.From chain index) (Handler.All Handler.Steady root) := by
  induction depth generalizing chain index l with
  | zero =>
      rw [next]
      refine advance_ends hindex hl fun place h hget hle => ?_
      have hlength := (Handler.order_drop_sublist_of_get chain hget hle).length_le
      rw [List.length_cons] at hlength
      omega
  | succ depth ih =>
      rw [next]
      refine advance_ends hindex hl fun place h hget hle => ?_
      have hhandler := List.mem_of_getElem? hget
      have hplace := (List.getElem?_eq_some_iff.mp hget).1
      have hsublist := Handler.order_drop_sublist_of_get chain hget hle
      have hlength := hsublist.length_le
      rw [List.length_cons, List.length_append] at hlength
      -- One level is used up; the chain inside `h` and the rest of this one have at least one
      -- handler less than what is left, so the levels that remain are enough for either.
      have hinner (l : Located E) := ih (chain ++ [place]) 0 (Nat.zero_le _)
        (by rw [Handler.chainAt_concat hget, List.drop_zero]; omega) (Place.from_enter l _)
      have hrest (l : Located E) (hl : l.place.From chain (place + 1)) :=
        ih chain (place + 1) (by omega) (by omega) hl
      rw [Handler.chainAt_concat hget, List.drop_zero] at hinner
      generalize Handler.order h.inside (chain ++ [place]) 0 = inner at hsublist hinner
      generalize Handler.order ((Handler.chainAt root chain).drop (place + 1)) chain (place + 1) =
        later at hsublist hrest
      have hprocess : (process monitor h (chain ++ [place]) (next monitor root depth)
          (l.select h.guard place)).Ends
            (NestsIn (inner ++ later) ((chain ++ [place]) :: (inner ++ later)))
            (·.place.From chain (place + 1)) (Handler.All Handler.Steady root) := by
        refine process_ends .nil (fun _ _ => .append) ?rest monitor ?call
          (hkeeps.of_mem_chainAt hhandler) Place.from_detached
          (fun hsteady => hsteady.of_mem_chainAt hhandler) ?inner
          (fun _ _ => Place.From.leave) (hl.select _ _)
        case rest =>
          intro l hl
          refine (hrest l hl).mono (fun seen => .mono (List.sublist_append_right _ _) ?_) fun _ => id
          exact fun a ha => List.mem_cons_of_mem _ (List.mem_append_right _ ha)
        case call =>
          intro notice hsame haddress
          refine .single hsame ?_
          rw [haddress]
          rintro _ ⟨⟩
          exact List.mem_cons_self
        case inner =>
          intro l
          refine (hinner l).mono (fun seen => .mono (List.sublist_append_left _ _) ?_)
            fun _ _ => trivial
          exact fun a ha => List.mem_cons_of_mem _ (List.mem_append_left _ ha)
      exact (activate_ends monitor List.mem_cons_self hprocess).mono
        (fun seen => .mono hsublist hsublist.subset) fun result hresult => hresult.mono (by omega)

/-- A dispatch comes to an end, with as many levels as there are handlers. -/
theorem Dispatcher.process_ends (d : Dispatcher E W) (event : E) (attributes : Attributes)
    (hkeeps : Handler.All Handler.KeepsPlaces [d.root]) {depth : Nat}
    (hdepth : Handler.count [d.root] ≤ depth) :
    (d.process monitor event attributes depth).Ends
      (NestsIn (Handler.order [d.root] [] 0) (Handler.order [d.root] [] 0))
      (fun _ => True) (Handler.All Handler.Steady [d.root]) := by
  have hstart : (startContext event attributes).place.From [] 0 := ⟨rfl, fun _ => Nat.zero_le _⟩
  refine .noting (fun _ _ => .append) (.single (fun _ => rfl) nofun) ?_
  refine (next_ends monitor hkeeps depth [] 0 (Nat.zero_le _) ?_ hstart).mono (fun _ => id)
    fun _ _ => trivial
  rwa [Handler.chainAt, List.drop_zero, Handler.order, List.length_map]

end Next

end Carried

end RequestRouting
