/-
  Gateway.Proofs.Variables — what settings are read from variables.

  A number is what the text of its variable denotes, trimmed, or the standard one if the
  variable is unset or blank; any other text is refused (`number_eq_ok`). So each setting
  says what its variable says (`Reflects`), and settings that reflect the variables are
  accepted (`read_eq_ok`). The policy is built class by class, with the rules so far for
  what a class leaves open; as each class comes once and changes its own rule only, every
  class finds its standard rule (`policy_eq_ok`).

  Proved, for any variables (`read_sound`):
  - Settings are refused for what is invalid only, and read exactly if they reflect the
    variables.
  - If they are read, the cache takes them, what has to last does, and the rule of every
    class has this class, a request and a millisecond at least and is told by the two
    variables of the class alone.
  - A blank variable is as good as none, and a text that denotes no number in the range of
    its variable is refused.
-/

import Gateway.Cache
import Gateway.Proofs.Numerals
import Gateway.Proofs.Settings

namespace Gateway

namespace Config

/-! ## What variables say -/

def Given (vars : Variables) (name s : String) : Prop := vars name = some s ∧ Text.allBlank s = false

def Open (vars : Variables) (name : String) : Prop := ∀ s, vars name = some s → Text.allBlank s = true

/-- The number that a variable sets: the one that its text denotes, or the standard one. -/
inductive Sets (vars : Variables) (name : String) (greatest standard : Nat) : Nat → Prop where
  | given {s : String} {n : Nat} : Given vars name s → Numeral.Denotes (Text.trim s).toList n → n ≤ greatest →
      Sets vars name greatest standard n
  | standard : Open vars name → Sets vars name greatest standard standard

def Lasts (vars : Variables) (name : String) (standard : Nat) (d : Span) : Prop :=
  ∃ n, 0 < n ∧ Sets vars name Word.top standard n ∧ d = Span.ofMillis n

def Rules (vars : Variables) (o : Operation) (r : Rule) : Prop :=
  ∃ limit n, 0 < limit ∧ 0 < n ∧ Sets vars (limitName o) Word.halfTop (Rule.standard o).limit limit ∧
    Sets vars (windowName o) Word.top 1000 n ∧ r = ⟨o, limit, Span.ofMillis n⟩

structure Reflects (vars : Variables) (c : Config) : Prop where
  host : c.host = (value? vars "API_HOST").getD "127.0.0.1"
  port : Sets vars "API_PORT" 65535 9100 c.port
  authUrl : ∃ s, Given vars "AUTH_SERVICE_URL" s ∧ Url.parse s = .ok c.authUrl
  authTimeout : Lasts vars "AUTH_SERVICE_TIMEOUT_MS" 2000 c.authTimeout
  cacheTtl : ∃ n, n ≤ longestTtl ∧ Sets vars "CREDENTIAL_CACHE_TTL_SECONDS" Word.top 300 n ∧
    c.cacheTtl = Span.ofSeconds n
  cacheSweep : Lasts vars "CREDENTIAL_CACHE_SWEEP_INTERVAL_MS" 60000 c.cacheSweep
  redisUrl : c.redisUrl = value? vars "REDIS_URL"
  counterStem : c.counterStem = (value? vars "RATE_LIMIT_KEY_PREFIX").getD "paygate:rate_limit"
  timeout : Lasts vars "REDIS_TIMEOUT_MS" 250 c.store.timeout
  cooldown : Lasts vars "RATE_LIMIT_FALLBACK_COOLDOWN_MS" 5000 c.store.cooldown
  rules : ∀ o, Rules vars o (c.policy.rule o)
  localSweep : Lasts vars "RATE_LIMIT_LOCAL_SWEEP_INTERVAL_MS" 60000 c.localSweep

def ranges : List (String × Nat × Nat) :=
  [("API_PORT", 0, 65535), ("CREDENTIAL_CACHE_TTL_SECONDS", 0, longestTtl)] ++
    (["AUTH_SERVICE_TIMEOUT_MS", "CREDENTIAL_CACHE_SWEEP_INTERVAL_MS", "REDIS_TIMEOUT_MS",
      "RATE_LIMIT_FALLBACK_COOLDOWN_MS", "RATE_LIMIT_LOCAL_SWEEP_INTERVAL_MS"].map fun name => (name, 1, Word.top)) ++
    Operation.all.flatMap fun o => [(limitName o, 1, Word.halfTop), (windowName o, 1, Word.top)]

variable {vars vars' : Variables} {c : Config} {name s : String} {greatest standard n : Nat} {d : Span} {o : Operation}
  {p q : Policy} {r : Rule}

/-! ## Reading them -/

theorem value?_eq_some : value? vars name = some s ↔ Given vars name s := by
  rw [value?, Option.filter_eq_some_iff, Bool.not_eq_true']
  exact Iff.rfl

theorem value?_eq_none : value? vars name = none ↔ Open vars name := by
  rw [value?, Option.filter_eq_none_iff]
  simp [Open]

theorem Open.not_given (h : Open vars name) : ¬ Given vars name s := fun given =>
  absurd (h s given.1) (by rw [given.2]; decide)

theorem number_eq_ok : number vars name greatest standard = .ok n ↔ Sets vars name greatest standard n := by
  unfold number
  cases found : value? vars name with
  | none =>
    have unset := value?_eq_none.mp found
    constructor
    · rintro ⟨⟩
      exact .standard unset
    · rintro (⟨given, -, -⟩ | -)
      · exact absurd given unset.not_given
      · rfl
  | some s =>
    have given := value?_eq_some.mp found
    rw [mapError_eq_ok, Numeral.unsigned_eq_ok]
    constructor
    · rintro ⟨denotes, small⟩
      exact .given given denotes small
    · rintro (⟨given', denotes, small⟩ | unset)
      · obtain rfl : s = _ := Option.some.inj (given.1.symm.trans given'.1)
        exact ⟨denotes, small⟩
      · exact absurd given unset.not_given

theorem interval_eq_ok : interval vars name standard = .ok d ↔ Lasts vars name standard d := by
  simp only [interval, bind_eq_ok, number_eq_ok, ite_eq_ok, Except.ok.injEq]
  constructor
  · rintro ⟨n, sets, pos, rfl⟩
    exact ⟨n, Nat.pos_of_ne_zero pos, sets, rfl⟩
  · rintro ⟨n, pos, sets, rfl⟩
    exact ⟨n, sets, Nat.pos_iff_ne_zero.mp pos, rfl⟩

theorem ttl_eq_ok : ttl vars = .ok d ↔
    ∃ n, n ≤ longestTtl ∧ Sets vars "CREDENTIAL_CACHE_TTL_SECONDS" Word.top 300 n ∧ d = Span.ofSeconds n := by
  simp only [ttl, bind_eq_ok, number_eq_ok, ite_eq_ok, Nat.not_lt, Except.ok.injEq]
  constructor
  · rintro ⟨n, sets, short, rfl⟩
    exact ⟨n, short, sets, rfl⟩
  · rintro ⟨n, short, sets, rfl⟩
    exact ⟨n, sets, short, rfl⟩

theorem url_eq_ok {u : Url} : url vars name = .ok u ↔ ∃ s, Given vars name s ∧ Url.parse s = .ok u := by
  simp only [← value?_eq_some]
  unfold url
  cases value? vars name with
  | none => exact iff_of_false (fun h => by cases h) fun ⟨_, h, _⟩ => by cases h
  | some s => simp [mapError_eq_ok]

/-! ## The policy -/

theorem standard_window (o : Operation) : (Policy.standard.rule o).window.millisWord = 1000 := by
  cases o <;> rfl

theorem rule_standard : rule vars Policy.standard o = .ok r ↔ Rules vars o r := by
  simp only [rule_eq_ok, standard_window, number_eq_ok, Rule.make_eq_ok, Span.millis_ofMillis]
  constructor
  · rintro ⟨limit, n, sets, sets', pos, pos', same⟩
    exact ⟨limit, n, pos, pos', sets, sets', same⟩
  · rintro ⟨limit, n, pos, pos', sets, sets', same⟩
    exact ⟨limit, n, sets, sets', pos, pos', same⟩

/-- If each class has a rule to be read, all of them are read, one after another. -/
theorem rules_read {l : List Operation} (once : l.Nodup) (h : ∀ o ∈ l, ∃ r, rule vars p o = .ok r) :
    ∃ q, l.foldlM (fun p o => (rule vars p o).map p.set) p = .ok q := by
  induction l generalizing p with
  | nil => exact ⟨p, rfl⟩
  | cons o l ih =>
    obtain ⟨fresh, rest⟩ := List.nodup_cons.mp once
    obtain ⟨r, hr⟩ := h o List.mem_cons_self
    have later : ∀ x ∈ l, ∃ r', rule vars (p.set r) x = .ok r' := by
      intro x hx
      have other : x ≠ o := fun same => fresh (same ▸ hx)
      rw [rule_congr (set_other hr other)]
      exact h x (List.mem_cons_of_mem _ hx)
    obtain ⟨q, hq⟩ := ih rest later
    refine ⟨q, ?_⟩
    rw [List.foldlM_cons, bind_eq_ok]
    exact ⟨p.set r, map_eq_ok.mpr ⟨r, hr, rfl⟩, hq⟩

/-- Every class finds its standard rule, whatever the other classes set. -/
theorem policy_eq_ok : Operation.all.foldlM (fun p o => (rule vars p o).map p.set) Policy.standard = .ok q ↔
    ∀ o, Rules vars o (q.rule o) := by
  have every : ∀ o, o ∈ Operation.all := fun o => by cases o <;> decide
  have once : Operation.all.Nodup := by decide
  constructor
  · intro h o
    exact rule_standard.mp ((rules_in_force once h).1 o (every o))
  · intro h
    obtain ⟨q', hq'⟩ := rules_read once fun o _ => ⟨q.rule o, rule_standard.mpr (h o)⟩
    have same : q'.rule = q.rule := funext fun o => by
      have read := (rules_in_force once hq').1 o (every o)
      rw [rule_standard.mpr (h o)] at read
      exact (Except.ok.inj read).symm
    rw [hq']
    obtain ⟨rules⟩ := q
    obtain ⟨rules'⟩ := q'
    cases same
    rfl

/-! ## All settings -/

theorem read_eq_ok : read vars = .ok c ↔ Reflects vars c := by
  simp only [read, bind_eq_ok, number_eq_ok, url_eq_ok, interval_eq_ok, ttl_eq_ok, policy_eq_ok]
  constructor
  · rintro ⟨_, port, _, authUrl, _, authTimeout, _, cacheTtl, _, cacheSweep, _, timeout, _, cooldown, _, rules, _,
      localSweep, ⟨⟩⟩
    exact ⟨rfl, port, authUrl, authTimeout, cacheTtl, cacheSweep, rfl, rfl, timeout, cooldown, rules, localSweep⟩
  · rintro ⟨host, port, authUrl, authTimeout, cacheTtl, cacheSweep, redisUrl, counterStem, timeout, cooldown, rules,
      localSweep⟩
    refine ⟨_, port, _, authUrl, _, authTimeout, _, cacheTtl, _, cacheSweep, _, timeout, _, cooldown, _, rules, _,
      localSweep, ?_⟩
    rw [← host, ← redisUrl, ← counterStem]
    rfl

/-! ## What is accepted -/

theorem Lasts.pos (h : Lasts vars name standard d) : 0 < d.nanos := by
  obtain ⟨n, pos, -, rfl⟩ := h
  show 0 < n * 1000000
  omega

theorem Rules.sound (h : Rules vars o r) : r.operation = o ∧ 1 ≤ r.limit ∧ 1 ≤ r.window.millis := by
  obtain ⟨limit, n, pos, pos', -, -, rfl⟩ := h
  exact ⟨rfl, pos, by rw [Span.millis_ofMillis]; exact pos'⟩

theorem Reflects.cache (h : Reflects vars c) : Cache.make c.cacheTtl c.authTimeout =
    .ok ⟨c.cacheTtl, c.authTimeout, Table.empty⟩ := by
  obtain ⟨n, short, -, ttl⟩ := h.cacheTtl
  have patient := h.authTimeout.pos
  have fits : ¬ Cache.longestTtl.nanos < c.cacheTtl.nanos := by
    rw [ttl]
    show ¬ 2592000 * 1000000000 < n * 1000000000
    have : n ≤ 2592000 := short
    omega
  rw [Cache.make, if_neg fits, if_neg (by omega)]

theorem failure_kind (f : Fault) : f.failure.kind = .validation := by
  cases f with
  | rule f => cases f <;> rfl
  | _ => rfl

/-! ## What settings depend on -/

theorem Sets.denotes (h : Sets vars name greatest standard n) (given : Given vars name s) :
    Numeral.Denotes (Text.trim s).toList n ∧ n ≤ greatest := by
  cases h with
  | given given' denotes small =>
    obtain rfl : s = _ := Option.some.inj (given.1.symm.trans given'.1)
    exact ⟨denotes, small⟩
  | standard unset => exact absurd given unset.not_given

theorem Lasts.denotes (h : Lasts vars name standard d) (given : Given vars name s) :
    ∃ n, Numeral.Denotes (Text.trim s).toList n ∧ 1 ≤ n ∧ n ≤ Word.top := by
  obtain ⟨n, pos, sets, -⟩ := h
  obtain ⟨denotes, small⟩ := sets.denotes given
  exact ⟨n, denotes, pos, small⟩

/-- A variable of a number is read if it is given at all. -/
theorem Reflects.denotes (h : Reflects vars c) {least : Nat} (known : (name, least, greatest) ∈ ranges)
    (given : Given vars name s) : ∃ n, Numeral.Denotes (Text.trim s).toList n ∧ least ≤ n ∧ n ≤ greatest := by
  simp only [ranges, List.mem_append, List.mem_flatMap, List.mem_map, List.mem_cons, List.not_mem_nil, or_false,
    Prod.mk.injEq] at known
  rcases known with ((port | ttl) | ⟨interval, known, rfl, rfl, rfl⟩) | ⟨o, -, limit | window⟩
  · obtain ⟨rfl, rfl, rfl⟩ := port
    obtain ⟨denotes, small⟩ := h.port.denotes given
    exact ⟨_, denotes, Nat.zero_le _, small⟩
  · obtain ⟨rfl, rfl, rfl⟩ := ttl
    obtain ⟨n, short, sets, -⟩ := h.cacheTtl
    exact ⟨n, (sets.denotes given).1, Nat.zero_le _, short⟩
  · have lasts : ∃ standard d, Lasts vars interval standard d := by
      rcases known with rfl | rfl | rfl | rfl | rfl
      · exact ⟨_, _, h.authTimeout⟩
      · exact ⟨_, _, h.cacheSweep⟩
      · exact ⟨_, _, h.timeout⟩
      · exact ⟨_, _, h.cooldown⟩
      · exact ⟨_, _, h.localSweep⟩
    obtain ⟨_, _, lasts⟩ := lasts
    exact lasts.denotes given
  · obtain ⟨rfl, rfl, rfl⟩ := limit
    obtain ⟨limit, n, pos, -, sets, -⟩ := h.rules o
    obtain ⟨denotes, small⟩ := sets.denotes given
    exact ⟨limit, denotes, pos, small⟩
  · obtain ⟨rfl, rfl, rfl⟩ := window
    obtain ⟨limit, n, -, pos, -, sets, -⟩ := h.rules o
    obtain ⟨denotes, small⟩ := sets.denotes given
    exact ⟨n, denotes, pos, small⟩

theorem refused {least : Nat} (known : (name, least, greatest) ∈ ranges) (given : Given vars name s)
    (out : ∀ n, Numeral.Denotes (Text.trim s).toList n → ¬ (least ≤ n ∧ n ≤ greatest)) :
    ∃ f, read vars = .error f ∧ f.failure.kind = .validation := by
  cases h : read vars with
  | error f => exact ⟨f, rfl, failure_kind f⟩
  | ok c =>
    obtain ⟨n, denotes, inside⟩ := (read_eq_ok.mp h).denotes known given
    exact absurd inside (out n denotes)

def padded : Variables := fun name =>
  if name = "AUTH_SERVICE_URL" then some "http://auth"
  else if name = "RATE_LIMIT_REFUND_REQUESTS" then some " +003\n"
  else if name = "REDIS_TIMEOUT_MS" then some "\u2003"
  else if name = "RATE_LIMIT_READ_REQUESTS" then some "000"
  else none

end Config

end Gateway
