import RequestRouting.Client.Basic
import RequestRouting.Proofs.Jar

/-!
# Where the cookies of a client come from

A client is started and stopped, is given cookies and sends requests, in any order and any number of
times, while its transport answers, fails, starts and stops as it likes. Whatever happens, the jar
is what the cookies given last have become by the `Set-Cookie` lines received since
(`Client.jar_after`). So a name holds the cookie of the last line for it (`Client.last_line_wins`),
and the cookies stand in the order of these lines (`Client.cookies_in_order_of_last_line`), which is
not the order in which the names came first (`Client.renewed_cookie_moves_to_end`).
-/

namespace RequestRouting.Http

namespace Client

/-! ## Histories -/

/-- What can happen to a client. -/
inductive Move
  | start
  | shutDown
  | setCookies (cookies : List Cookie)
  | send (request : Request) (attributes : Attributes)
  /-- The transport changes by itself. -/
  | network (change : Network → Network)

/-- What a client answers, a response if it has got one, and the client after that. -/
def perform (c : Client) : Move → Except ClientError (Option Response) × Client
  | .start => (c.start.1.map fun _ => none, c.start.2)
  | .shutDown => (c.shutDown.1.map fun _ => none, c.shutDown.2)
  | .setCookies cookies => (.ok none, c.setCookies cookies)
  | .send request attributes =>
      ((c.send request attributes).1.map some, (c.send request attributes).2)
  | .network change => (.ok none, { c with network := change c.network })

/-- The client after a history. -/
def after (c : Client) (moves : List Move) : Client :=
  moves.foldl (fun c move => (c.perform move).2) c

/-- Where cookies come from: the jar that was given last, and the `Set-Cookie` lines of the
responses since then, oldest first. -/
structure Intake where
  given : Jar
  lines : List HeaderValue := []

/-- What a move adds, by what has come of it. -/
def Intake.next (past : Intake) (move : Move) (answer : Except ClientError (Option Response)) :
    Intake :=
  match move, answer with
  | .setCookies cookies, _ => { given := cookies }
  | _, .ok (some response) =>
      { past with lines := past.lines ++ response.headers.getAll .setCookie }
  | _, _ => past

/-- Where the cookies of a client come from after a history. -/
def intake (c : Client) (past : Intake) : List Move → Intake
  | [] => past
  | move :: moves => (c.perform move).2.intake (past.next move (c.perform move).1) moves

/-- Where the cookies of a client come from if nothing is known of it but the jar. -/
def unknownPast (c : Client) : Intake := { given := c.jar }

/-! ## One call -/

theorem jar_start (c : Client) : c.start.2.jar = c.jar := by
  unfold start
  split
  · rfl
  · split <;> rfl

theorem jar_shutDown (c : Client) : c.shutDown.2.jar = c.jar := by
  unfold shutDown
  split
  · split <;> rfl
  · rfl

theorem jar_exchange (c : Client) (request : Request) (attributes : Attributes) :
    (c.exchange request attributes).2.jar = c.jar := by
  unfold exchange
  split <;> rfl

theorem jar_receiveCookies (c : Client) (response : Response) :
    (c.receiveCookies response).jar = c.jar.receiveAll (response.headers.getAll .setCookie) := by
  unfold receiveCookies Jar.receiveAll
  induction response.headers.getAll .setCookie generalizing c with
  | nil => rfl
  | cons value lines ih =>
      have hone : (c.receiveCookie value).jar = (c.jar.receive? value).getD c.jar := by
        unfold receiveCookie
        cases c.jar.receive? value <;> rfl
      rw [List.foldl_cons, List.foldl_cons, ih, hone]

/-- What can come of sending a request. -/
theorem send_cases (c : Client) (request : Request) (attributes : Attributes) :
    (c.started = false ∧ c.send request attributes = (.error .notStarted, c)) ∨
      (c.started = true ∧ ∃ next,
        ((∃ response, c.exchange (c.attachCookies (c.settings.apply request)) attributes =
            (.ok response, next) ∧
          c.send request attributes = (.ok response, next.receiveCookies response)) ∨
        ∃ error, c.exchange (c.attachCookies (c.settings.apply request)) attributes =
            (.error error, next) ∧
          c.send request attributes = (.error error, next))) := by
  unfold send
  cases c.started with
  | false => exact .inl ⟨rfl, rfl⟩
  | true =>
      refine .inr ⟨rfl, ?_⟩
      dsimp only
      generalize c.exchange (c.attachCookies (c.settings.apply request)) attributes = result
      obtain ⟨answer, next⟩ := result
      cases answer with
      | ok response => exact ⟨next, .inl ⟨response, rfl, rfl⟩⟩
      | error error => exact ⟨next, .inr ⟨error, rfl, rfl⟩⟩

/-- Whatever goes wrong on the way, it is no refusal. -/
theorem ne_refused_of_exchange {c next : Client} {request : Request} {attributes : Attributes}
    {error : ClientError} (hexchange : c.exchange request attributes = (.error error, next)) :
    error ≠ .notStarted ∧ error ≠ .alreadyStarted := by
  have hmapped {ε : Type} {result : Except ε Response} {wrap : ε → ClientError}
      (herror : result.mapError wrap = .error error) : ∃ cause, error = wrap cause := by
    cases result with
    | ok response => cases herror
    | error cause => cases herror; exact ⟨cause, rfl⟩
  unfold exchange at hexchange
  split at hexchange
  · obtain ⟨_, rfl⟩ := hmapped (Prod.mk.inj hexchange).1
    exact ⟨nofun, nofun⟩
  · obtain ⟨_, rfl⟩ := hmapped (Prod.mk.inj hexchange).1
    exact ⟨nofun, nofun⟩

/-- Only a response has cookies to take in. -/
theorem jar_send (c : Client) (request : Request) (attributes : Attributes) :
    (c.send request attributes).2.jar =
      match (c.send request attributes).1 with
      | .ok response => c.jar.receiveAll (response.headers.getAll .setCookie)
      | .error _ => c.jar := by
  have hjar := c.jar_exchange (c.attachCookies (c.settings.apply request)) attributes
  rcases c.send_cases request attributes with
    ⟨_, hsend⟩ | ⟨_, next, ⟨response, hexchange, hsend⟩ | ⟨error, hexchange, hsend⟩⟩
  · rw [hsend]
  · rw [hexchange] at hjar
    rw [hsend]
    dsimp only
    rw [jar_receiveCookies, hjar]
  · rw [hexchange] at hjar
    rw [hsend]
    exact hjar

/-- A call that fails leaves the jar alone. -/
theorem jar_perform_of_error {c : Client} {move : Move} {error : ClientError}
    (herror : (c.perform move).1 = .error error) : (c.perform move).2.jar = c.jar := by
  cases move with
  | start => exact c.jar_start
  | shutDown => exact c.jar_shutDown
  | setCookies | network => cases herror
  | send request attributes =>
      have hjar := c.jar_send request attributes
      change (c.send request attributes).1.map some = .error error at herror
      change (c.send request attributes).2.jar = c.jar
      cases hanswer : (c.send request attributes).1 with
      | ok response => rw [hanswer] at herror; cases herror
      | error cause => rw [hjar, hanswer]

/-- A call that is refused changes nothing. -/
theorem perform_of_refused {c : Client} {move : Move} {error : ClientError}
    (herror : (c.perform move).1 = .error error)
    (hrefused : error = .notStarted ∨ error = .alreadyStarted) : (c.perform move).2 = c := by
  cases move with
  | setCookies | network => cases herror
  | start =>
      simp only [perform, start] at herror ⊢
      grind [Except.map]
  | shutDown =>
      simp only [perform, shutDown] at herror ⊢
      grind [Except.map]
  | send request attributes =>
      simp only [perform] at herror ⊢
      rcases c.send_cases request attributes with
        ⟨_, hsend⟩ | ⟨_, next, ⟨response, _, hsend⟩ | ⟨cause, hexchange, hsend⟩⟩
      · rw [hsend]
      · rw [hsend] at herror
        cases herror
      · rw [hsend] at herror
        cases herror
        obtain ⟨hstarted, halready⟩ := ne_refused_of_exchange hexchange
        exact (hrefused.elim hstarted halready).elim

/-! ## A history -/

/-- The jar that a past has led to. -/
def Intake.jar (past : Intake) : Jar := past.given.receiveAll past.lines

theorem jar_perform {c : Client} {past : Intake} (hpast : c.jar = past.jar) (move : Move) :
    (c.perform move).2.jar = (past.next move (c.perform move).1).jar := by
  cases move with
  | setCookies cookies => rfl
  | network change => exact hpast
  | start =>
      refine (c.jar_start.trans hpast).trans ?_
      simp only [perform]
      cases c.start.1 <;> rfl
  | shutDown =>
      refine (c.jar_shutDown.trans hpast).trans ?_
      simp only [perform]
      cases c.shutDown.1 <;> rfl
  | send request attributes =>
      simp only [perform, jar_send]
      cases (c.send request attributes).1 with
      | error cause => exact hpast
      | ok response =>
          rw [hpast]
          exact List.foldl_append.symm

/-- Where the cookies come from accounts for the whole jar. -/
theorem jar_after {c : Client} {past : Intake} (hpast : c.jar = past.jar) (moves : List Move) :
    (c.after moves).jar = (c.intake past moves).jar := by
  induction moves generalizing c past with
  | nil => exact hpast
  | cons move moves ih => exact ih (jar_perform hpast move)

/-- Of a client without a history only its jar is known. -/
theorem jar_after_unknownPast (c : Client) (moves : List Move) :
    (c.after moves).jar = (c.intake c.unknownPast moves).jar :=
  jar_after rfl moves

/-- Jars that are given without a name twice have been given that way. -/
theorem distinct_given (c : Client) {past : Intake} (hpast : past.given.Distinct)
    {moves : List Move}
    (hmoves : ∀ cookies, Move.setCookies cookies ∈ moves → Jar.Distinct cookies) :
    (c.intake past moves).given.Distinct := by
  induction moves generalizing c past with
  | nil => exact hpast
  | cons move moves ih =>
      refine ih _ ?_ fun cookies hmem => hmoves cookies (.tail _ hmem)
      unfold Intake.next
      split
      · exact hmoves _ List.mem_cons_self
      · exact hpast
      · exact hpast

theorem distinct_after {c : Client} {moves : List Move} (hstart : c.jar.Distinct)
    (hmoves : ∀ cookies, Move.setCookies cookies ∈ moves → Jar.Distinct cookies) :
    (c.after moves).jar.Distinct := by
  rw [jar_after_unknownPast, Intake.jar, Jar.receiveAll_eq_storeAll]
  exact (distinct_given c hstart hmoves).storeAll _

/-- No name is held twice, and a name holds the cookie of the last well-formed line for it since
cookies were given last, or else the cookie that was given. Calls that fail leave the jar alone, and
those that are refused leave all alone. -/
theorem last_line_wins (c : Client) (moves : List Move) (hstart : c.jar.Distinct)
    (hmoves : ∀ cookies, Move.setCookies cookies ∈ moves → Jar.Distinct cookies) :
    (c.after moves).jar.Distinct ∧
      (∀ cookie, cookie ∈ (c.after moves).jar ↔
        (c.intake c.unknownPast moves).given.heldAfter (c.intake c.unknownPast moves).lines
          cookie.name = some cookie) ∧
      (∀ name, (c.after moves).jar.find? name =
        (c.intake c.unknownPast moves).given.heldAfter (c.intake c.unknownPast moves).lines name) ∧
      (∀ name, name ∈ (c.after moves).jar.names ↔ ∃ cookie ∈ (c.after moves).jar,
        cookie.name = name) ∧
      ∀ (other : Client) (move : Move) (error : ClientError),
        (other.perform move).1 = .error error →
          (other.perform move).2.jar = other.jar ∧
            (error = .notStarted ∨ error = .alreadyStarted → (other.perform move).2 = other) := by
  have hdistinct := distinct_after hstart hmoves
  have hfind (name : String) : (c.after moves).jar.find? name =
      (c.intake c.unknownPast moves).given.heldAfter (c.intake c.unknownPast moves).lines name := by
    rw [jar_after_unknownPast, Intake.jar, Jar.find?_receiveAll]
  refine ⟨hdistinct, fun cookie => ?_, hfind, fun name => ?_, fun other move error herror => ?_⟩
  · rw [Jar.mem_iff_find? hdistinct, hfind]
  · simp [Jar.names]
  · exact ⟨jar_perform_of_error herror, perform_of_refused herror⟩

/-- A `Set-Cookie` header with the given text. -/
def cookieLine (text : String) (hvalid : (Utf8.encode text).all isHeaderByte = true) :
    HeaderName × HeaderValue :=
  (.setCookie, ⟨Utf8.encode text, hvalid⟩)

/-- A server with a login, a logout and nothing else. -/
def members (request : Request) : Except Failure Response :=
  if request.path = "/login" then
    .ok { headers := ⟨[cookieLine "session=abc; Path=/" (by decide),
      cookieLine "=broken" (by decide), cookieLine "theme=\"dark\"" (by decide)]⟩ }
  else if request.path = "/logout" then
    .ok { headers := ⟨[cookieLine "session=; Max-Age=0" (by decide)]⟩ }
  else .error (.text "no such page")

/-- A client of that server. -/
def visitor : Client := { network := { transport := { answering := .free fun _ => members } } }

/-- A visit with two refused calls and one that fails. -/
def visit : List Move :=
  [.send (.ofTarget .get "/login") .empty, .start, .start,
    .setCookies [⟨"theme", "light"⟩, ⟨"lang", "en"⟩],
    .send (.ofTarget .get "/login") .empty, .send (.ofTarget .get "/profile") .empty,
    .send (.ofTarget .get "/logout") .empty]

theorem distinct_visit :
    ∀ cookies, Move.setCookies cookies ∈ visit → Jar.Distinct cookies := by
  intro cookies hmem
  simp only [visit, List.mem_cons, reduceCtorEq, Move.setCookies.injEq, List.not_mem_nil, false_or,
    or_false] at hmem
  subst hmem
  exact (by decide : (["theme", "lang"] : List String).Nodup)

/-- The session is over, the theme is the one received, and the language the one given. -/
theorem last_line_wins_after_logout :
    visitor.jar.Distinct ∧ (∀ cookies, Move.setCookies cookies ∈ visit → Jar.Distinct cookies) ∧
      (visitor.after visit).jar.Distinct ∧
      (visitor.after visit).jar.find? "session" = none ∧
      (visitor.after visit).jar.find? "theme" = some ⟨"theme", "dark"⟩ ∧
      ⟨"lang", "en"⟩ ∈ (visitor.after visit).jar := by
  obtain ⟨hdistinct, hmem, hfind, _, _⟩ :=
    last_line_wins visitor visit List.nodup_nil distinct_visit
  refine ⟨List.nodup_nil, distinct_visit, hdistinct, ?_, ?_, ?_⟩
  · rw [hfind]
    decide +kernel
  · rw [hfind]
    decide +kernel
  · rw [hmem]
    decide +kernel

/-- Cookies stand in the order in which they came last, be it that they were given or received. -/
theorem cookies_in_order_of_last_line (c : Client) (moves : List Move) (hstart : c.jar.Distinct)
    (hmoves : ∀ cookies, Move.setCookies cookies ∈ moves → Jar.Distinct cookies) :
    (c.after moves).jar.map Cookie.name =
      (((c.intake c.unknownPast moves).given.map Cookie.name ++
        ((c.intake c.unknownPast moves).lines.filterMap HeaderValue.cookie?).map
          (·.1.name)).dedup).filter fun name => ((c.after moves).jar.find? name).isSome := by
  rw [jar_after_unknownPast, Intake.jar, Jar.receiveAll_eq_storeAll]
  exact Jar.names_storeAll _ (distinct_given c hstart hmoves)

/-- The theme was given before the language and received after it. -/
theorem cookies_in_order_after_logout :
    visitor.jar.Distinct ∧ (∀ cookies, Move.setCookies cookies ∈ visit → Jar.Distinct cookies) ∧
      (visitor.after visit).jar.map Cookie.name = ["lang", "theme"] := by
  refine ⟨List.nodup_nil, distinct_visit, ?_⟩
  rw [cookies_in_order_of_last_line visitor visit List.nodup_nil distinct_visit]
  decide +kernel

/-- The names in the order in which they entered the jar since they were last absent. -/
def namesByEntry (received : List (Cookie × Bool)) : List String :=
  received.foldl (fun names entry =>
    if entry.2 then names.filter (· != entry.1.name)
    else if names.contains entry.1.name then names
    else names ++ [entry.1.name]) []

/-- A client of a server that sends a cookie, another one, and a new value for the first. -/
def renewed : Client where
  network := { transport := { answering := .fixed { headers := ⟨[cookieLine "a=1" (by decide),
    cookieLine "b=2" (by decide), cookieLine "a=3" (by decide)]⟩ } } }

/-- A cookie that gets a new value does not keep its place. -/
theorem renewed_cookie_moves_to_end :
    renewed.jar = [] ∧
      (renewed.start.2.send .root .empty).1.isOk = true ∧
      (renewed.after [.start, .send .root .empty]).jar = [⟨"b", "2"⟩, ⟨"a", "3"⟩] ∧
      namesByEntry
        ((renewed.intake renewed.unknownPast [.start, .send .root .empty]).lines.filterMap
          HeaderValue.cookie?) = ["a", "b"] := by
  decide +kernel

end Client

end RequestRouting.Http
