import RequestRouting.Proofs.CookieHistory

/-!
# What a client hands on

A request that is sent leaves the client complete: with what the settings add and with the cookies
of the jar (`Client.outgoing`). The handlers get it, or the transport if there are none, and the
answer and the state of the transport are what comes of that (`Client.send_eq_exchange`). Settings
and handlers are the same throughout the life of a client.
-/

namespace RequestRouting.Http.Client

/-- The request that goes to the handlers, or to the transport if there are none. -/
def outgoing (c : Client) (request : Request) : Request :=
  c.attachCookies (c.settings.apply request)

/-! ## One request -/

theorem send_of_not_started {c : Client} (hstarted : c.started = false) (request : Request)
    (attributes : Attributes) : c.send request attributes = (.error .notStarted, c) := by
  unfold send
  rw [hstarted]
  rfl

theorem transport_receiveCookies (c : Client) (response : Response) :
    (c.receiveCookies response).network.transport = c.network.transport := by
  unfold receiveCookies
  induction response.headers.getAll .setCookie generalizing c with
  | nil => rfl
  | cons value lines ih =>
      rw [List.foldl_cons, ih, receiveCookie]
      split <;> rfl

/-- What comes of a request is what comes of the complete one. -/
theorem send_eq_exchange {c : Client} (hstarted : c.started = true) (request : Request)
    (attributes : Attributes) :
    (c.send request attributes).1 = (c.exchange (c.outgoing request) attributes).1 ∧
      (c.send request attributes).2.network.transport =
        (c.exchange (c.outgoing request) attributes).2.network.transport := by
  rcases c.send_cases request attributes with
    ⟨hnot, _⟩ | ⟨_, next, ⟨response, hexchange, hsend⟩ | ⟨error, hexchange, hsend⟩⟩
  · rw [hstarted] at hnot
    cases hnot
  · rw [outgoing, hexchange, hsend]
    exact ⟨rfl, transport_receiveCookies next response⟩
  · rw [outgoing, hexchange, hsend]
    exact ⟨rfl, rfl⟩

/-! ## A history -/

/-- Two states of one client: its settings and its handlers are the same. -/
structure SameMake (c d : Client) : Prop where
  settings : d.settings = c.settings
  router : d.router = c.router

namespace SameMake

theorem refl (c : Client) : SameMake c c := ⟨rfl, rfl⟩

theorem trans {c d e : Client} (hfirst : SameMake c d) (hsecond : SameMake d e) : SameMake c e :=
  ⟨hsecond.settings.trans hfirst.settings, hsecond.router.trans hfirst.router⟩

end SameMake

theorem sameMake_receiveCookies (c : Client) (response : Response) :
    SameMake c (c.receiveCookies response) := by
  unfold receiveCookies
  induction response.headers.getAll .setCookie generalizing c with
  | nil => exact .refl c
  | cons value lines ih =>
      have hone : SameMake c (c.receiveCookie value) := by
        unfold receiveCookie
        split <;> exact ⟨rfl, rfl⟩
      exact hone.trans (ih _)

theorem sameMake_exchange (c : Client) (request : Request) (attributes : Attributes) :
    SameMake c (c.exchange request attributes).2 := by
  unfold exchange
  split <;> exact ⟨rfl, rfl⟩

/-- No call touches the settings or the handlers. -/
theorem sameMake_perform (c : Client) (move : Move) : SameMake c (c.perform move).2 := by
  cases move with
  | start =>
      unfold perform start
      dsimp only
      split
      · exact .refl c
      · split <;> exact ⟨rfl, rfl⟩
  | shutDown =>
      unfold perform shutDown
      dsimp only
      split
      · split <;> exact ⟨rfl, rfl⟩
      · exact .refl c
  | setCookies | network => exact ⟨rfl, rfl⟩
  | send request attributes =>
      have hkept := c.sameMake_exchange (c.outgoing request) attributes
      change SameMake c (c.send request attributes).2
      rcases c.send_cases request attributes with
        ⟨_, hsend⟩ | ⟨_, next, ⟨response, hexchange, hsend⟩ | ⟨error, hexchange, hsend⟩⟩
      · rw [hsend]
        exact .refl c
      · rw [outgoing, hexchange] at hkept
        rw [hsend]
        exact hkept.trans (next.sameMake_receiveCookies response)
      · rw [outgoing, hexchange] at hkept
        rw [hsend]
        exact hkept

theorem sameMake_after (c : Client) (moves : List Move) : SameMake c (c.after moves) := by
  induction moves generalizing c with
  | nil => exact .refl c
  | cons move moves ih => exact (c.sameMake_perform move).trans (ih _)

end RequestRouting.Http.Client
