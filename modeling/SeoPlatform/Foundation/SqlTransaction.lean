import Mathlib.Logic.Basic

namespace SeoPlatform.Foundation.SqlTransaction

/-- The error a server answers with to every statement of a transaction in
which an earlier one failed. -/
class SqlError (ε : Type) where
  inFailedTransaction : ε

/-- A connection inside a transaction: the tables as it sees them, whether an
earlier statement failed, and what the server will answer to the coming
statements (`none` is success, and so is the end of the list). -/
structure Session (σ ε : Type) where
  state : σ
  aborted : Bool
  faults : List (Option ε)

/-- A program that sends statements over one connection and may raise. -/
structure Tx (σ ε α : Type) where
  run : Session σ ε → Except ε α × Session σ ε

variable {σ ε α β : Type}

instance : Monad (Tx σ ε) where
  pure a := ⟨fun x => (.ok a, x)⟩
  bind p k := ⟨fun x =>
    match p.run x with
    | (.ok a, y) => (k a).run y
    | (.error e, y) => (.error e, y)⟩

instance : MonadExceptOf ε (Tx σ ε) where
  throw e := ⟨fun x => (.error e, x)⟩
  tryCatch p handler := ⟨fun x =>
    match p.run x with
    | (.ok a, y) => (.ok a, y)
    | (.error e, y) => (handler e).run y⟩

/-- The connection a transaction starts with. -/
def Session.opened (s : σ) (faults : List (Option ε)) : Session σ ε :=
  { state := s, aborted := false, faults := faults }

def Session.fault (x : Session σ ε) : Option ε := x.faults.head?.join

/-- The server's answer to one statement. -/
def answer [SqlError ε] (f : σ → Except ε (α × σ)) (x : Session σ ε) : Except ε (α × σ) :=
  if x.aborted then
    .error SqlError.inFailedTransaction
  else
    match x.fault with
    | some e => .error e
    | none => f x.state

/-- One statement. A failure, of the server or of a constraint, aborts the
transaction around it. -/
def statement [SqlError ε] (f : σ → Except ε (α × σ)) : Tx σ ε α := ⟨fun x =>
  match answer f x with
  | .ok (a, s) => (.ok a, { x with state := s, faults := x.faults.tail })
  | .error e => (.error e, { x with aborted := true, faults := x.faults.tail })⟩

def query [SqlError ε] (f : σ → α) : Tx σ ε α := statement fun s => .ok (f s, s)

def modify [SqlError ε] (f : σ → σ) : Tx σ ε Unit := statement fun s => .ok ((), f s)

/-- A computation that sends nothing, and its exception. -/
def fromExcept : Except ε α → Tx σ ε α
  | .ok a => pure a
  | .error e => throw e

/-- Run a program as one transaction. COMMIT is answered by the server too,
and COMMIT of an aborted transaction is a ROLLBACK. -/
def transaction (p : Tx σ ε α) (faults : List (Option ε)) (s : σ) : Except ε α × σ :=
  match p.run (.opened s faults) with
  | (.error e, _) => (.error e, s)
  | (.ok a, x) =>
      match x.fault with
      | some e => (.error e, s)
      | none => (.ok a, if x.aborted then s else x.state)

/-- The program runs to its end and returns. -/
def Returns (p : Tx σ ε α) (x : Session σ ε) (a : α) (y : Session σ ε) : Prop :=
  p.run x = (.ok a, y)

def Raises (p : Tx σ ε α) (x : Session σ ε) (e : ε) (y : Session σ ε) : Prop :=
  p.run x = (.error e, y)

theorem pure_returns {a b : α} {x y : Session σ ε} :
    Returns (pure a : Tx σ ε α) x b y ↔ b = a ∧ y = x := by
  simp only [Returns, pure, Prod.mk.injEq, Except.ok.injEq]
  exact and_congr eq_comm eq_comm

/-- A sequence returns when its first part does and then its second. -/
theorem bind_returns {p : Tx σ ε α} {k : α → Tx σ ε β} {x z : Session σ ε} {b : β} :
    Returns (p >>= k) x b z ↔ ∃ a y, Returns p x a y ∧ Returns (k a) y b z := by
  simp only [Returns, bind]
  rcases p.run x with ⟨(e | a), y⟩ <;> simp [and_assoc]

theorem bind_raises {p : Tx σ ε α} {k : α → Tx σ ε β} {x z : Session σ ε} {e : ε} :
    Raises (p >>= k) x e z ↔
      Raises p x e z ∨ ∃ a y, Returns p x a y ∧ Raises (k a) y e z := by
  simp only [Raises, Returns, bind]
  rcases p.run x with ⟨(e' | a), y⟩ <;> simp [and_assoc]

theorem throw_returns {e : ε} {a : α} {x y : Session σ ε} :
    ¬ Returns (throw e : Tx σ ε α) x a y := by
  simp [Returns, throw, throwThe, MonadExceptOf.throw]

theorem fromExcept_returns {r : Except ε α} {a : α} {x y : Session σ ε} :
    Returns (fromExcept r) x a y ↔ r = .ok a ∧ y = x := by
  cases r with
  | ok b => rw [fromExcept, pure_returns, Except.ok.injEq, eq_comm]
  | error e => simp [fromExcept, throw_returns]

/-- A handler returns either what the body returned, or what it made of the
error the body raised, on the connection as the body left it. -/
theorem tryCatch_returns {p : Tx σ ε α} {handler : ε → Tx σ ε α} {x z : Session σ ε} {a : α} :
    Returns (tryCatch p handler) x a z ↔
      Returns p x a z ∨ ∃ e y, Raises p x e y ∧ Returns (handler e) y a z := by
  simp only [Returns, Raises, tryCatch, tryCatchThe, MonadExceptOf.tryCatch]
  rcases p.run x with ⟨(e | b), y⟩ <;> simp [and_assoc]

section Statements

variable [SqlError ε]

theorem answer_ok {f : σ → Except ε (α × σ)} {x : Session σ ε} {r : α × σ} :
    answer f x = .ok r ↔ x.aborted = false ∧ x.fault = none ∧ f x.state = .ok r := by
  unfold answer
  cases x.aborted <;> cases x.fault <;> simp

theorem statement_returns {f : σ → Except ε (α × σ)} {x y : Session σ ε} {a : α} :
    Returns (statement f) x a y ↔
      x.aborted = false ∧ x.fault = none ∧
        ∃ s, f x.state = .ok (a, s) ∧ y = { x with state := s, faults := x.faults.tail } := by
  unfold Returns statement
  constructor
  · intro h
    cases hanswer : answer f x with
    | error e => simp [hanswer] at h
    | ok r =>
        rcases r with ⟨b, s⟩
        obtain ⟨haborted, hfault, hf⟩ := answer_ok.mp hanswer
        simp only [hanswer, Prod.mk.injEq, Except.ok.injEq] at h
        obtain ⟨rfl, rfl⟩ := h
        exact ⟨haborted, hfault, s, hf, rfl⟩
  · rintro ⟨haborted, hfault, s, hf, rfl⟩
    simp [answer_ok.mpr ⟨haborted, hfault, hf⟩]

/-- Every error the program raises comes from a failed statement. -/
def RaisesOnlySql (p : Tx σ ε α) : Prop :=
  ∀ x e y, Raises p x e y → y.aborted = true

theorem statement_raisesOnlySql (f : σ → Except ε (α × σ)) : RaisesOnlySql (statement f) := by
  intro x e y h
  unfold Raises statement at h
  cases hanswer : answer f x with
  | error e' =>
      simp only [hanswer, Prod.mk.injEq] at h
      rw [← h.2]
  | ok r => simp [hanswer] at h

theorem query_raisesOnlySql (f : σ → α) : RaisesOnlySql (query f : Tx σ ε α) :=
  statement_raisesOnlySql _

/-- Every statement after a failed one is refused. -/
theorem statement_raises_of_aborted (f : σ → Except ε (α × σ)) {x : Session σ ε}
    (h : x.aborted = true) :
    Raises (statement f) x SqlError.inFailedTransaction { x with faults := x.faults.tail } := by
  simp only [Raises, statement, answer, h, if_true]

omit [SqlError ε] in
theorem pure_raisesOnlySql (a : α) : RaisesOnlySql (pure a : Tx σ ε α) := by
  intro x e y h
  simp [Raises, pure] at h

omit [SqlError ε] in
theorem bind_raisesOnlySql {p : Tx σ ε α} {k : α → Tx σ ε β} (hp : RaisesOnlySql p)
    (hk : ∀ a, RaisesOnlySql (k a)) : RaisesOnlySql (p >>= k) := by
  intro x e z h
  rcases bind_raises.mp h with h | ⟨a, y, -, h⟩
  · exact hp x e z h
  · exact hk a y e z h

end Statements

/-- A relational specification: where the program returns with no statement
failed, the tables before, the value and the tables after stand in `R`. -/
def Meets (p : Tx σ ε α) (R : σ → α → σ → Prop) : Prop :=
  ∀ x a y, Returns p x a y → y.aborted = false → x.aborted = false ∧ R x.state a y.state

theorem Meets.mono {p : Tx σ ε α} {R S : σ → α → σ → Prop} (h : Meets p R)
    (hRS : ∀ s a s', R s a s' → S s a s') : Meets p S := by
  intro x a y hreturns haborted
  obtain ⟨hx, hR⟩ := h x a y hreturns haborted
  exact ⟨hx, hRS _ _ _ hR⟩

theorem pure_meets (a : α) : Meets (pure a : Tx σ ε α) fun s b s' => b = a ∧ s' = s := by
  intro x b y hreturns haborted
  obtain ⟨rfl, rfl⟩ := pure_returns.mp hreturns
  exact ⟨haborted, rfl, rfl⟩

theorem throw_meets (e : ε) (R : σ → α → σ → Prop) : Meets (throw e : Tx σ ε α) R := by
  intro x a y hreturns _
  exact absurd hreturns throw_returns

theorem fromExcept_meets (r : Except ε α) :
    Meets (fromExcept r : Tx σ ε α) fun s a s' => r = .ok a ∧ s' = s := by
  intro x a y hreturns haborted
  obtain ⟨hr, rfl⟩ := fromExcept_returns.mp hreturns
  exact ⟨haborted, hr, rfl⟩

/-- The rule of sequence. -/
theorem bind_meets {p : Tx σ ε α} {k : α → Tx σ ε β} {R : σ → α → σ → Prop}
    {S : α → σ → β → σ → Prop} (hp : Meets p R) (hk : ∀ a, Meets (k a) (S a)) :
    Meets (p >>= k) fun s b s'' => ∃ a s', R s a s' ∧ S a s' b s'' := by
  intro x b z hreturns haborted
  obtain ⟨a, y, hp', hk'⟩ := bind_returns.mp hreturns
  obtain ⟨hy, hS⟩ := hk a y b z hk' haborted
  obtain ⟨hx, hR⟩ := hp x a y hp' hy
  exact ⟨hx, a, y.state, hR, hS⟩

/-- The rule of exceptions, for a body that only the server makes fail: a
handler that returns after such a failure returns on an aborted transaction. -/
theorem tryCatch_meets {p : Tx σ ε α} {handler : ε → Tx σ ε α} {R : σ → α → σ → Prop}
    {S : ε → σ → α → σ → Prop} (hsql : RaisesOnlySql p) (hp : Meets p R)
    (hhandler : ∀ e, Meets (handler e) (S e)) : Meets (tryCatch p handler) R := by
  intro x a z hreturns haborted
  rcases tryCatch_returns.mp hreturns with hreturns | ⟨e, y, hraises, hreturns⟩
  · exact hp x a z hreturns haborted
  · obtain ⟨hy, -⟩ := hhandler e y a z hreturns haborted
    rw [hsql x e y hraises] at hy
    contradiction

theorem statement_meets [SqlError ε] (f : σ → Except ε (α × σ)) :
    Meets (statement f) fun s a s' => f s = .ok (a, s') := by
  intro x a y hreturns _
  obtain ⟨haborted, -, s, hf, rfl⟩ := statement_returns.mp hreturns
  exact ⟨haborted, hf⟩

theorem query_meets [SqlError ε] (f : σ → α) :
    Meets (query f : Tx σ ε α) fun s a s' => a = f s ∧ s' = s :=
  (statement_meets _).mono fun s a s' h => by
    cases h
    exact ⟨rfl, rfl⟩

theorem modify_meets [SqlError ε] (f : σ → σ) :
    Meets (modify f : Tx σ ε Unit) fun s _ s' => s' = f s :=
  (statement_meets _).mono fun s a s' h => by
    cases h
    rfl

/-- The program returns on no connection where a statement failed. -/
def Firm (p : Tx σ ε α) : Prop :=
  ∀ x a y, Returns p x a y → y.aborted = false

/-- The program swallows no failure of its own statements. -/
def Clean (p : Tx σ ε α) : Prop :=
  ∀ x a y, x.aborted = false → Returns p x a y → y.aborted = false

theorem Firm.clean {p : Tx σ ε α} (h : Firm p) : Clean p := fun x a y _ => h x a y

theorem pure_clean (a : α) : Clean (pure a : Tx σ ε α) := by
  intro x b y haborted hreturns
  obtain ⟨-, rfl⟩ := pure_returns.mp hreturns
  exact haborted

theorem throw_firm (e : ε) : Firm (throw e : Tx σ ε α) := by
  intro x a y hreturns
  exact absurd hreturns throw_returns

theorem statement_firm [SqlError ε] (f : σ → Except ε (α × σ)) : Firm (statement f) := by
  intro x a y hreturns
  obtain ⟨haborted, -, s, -, rfl⟩ := statement_returns.mp hreturns
  exact haborted

theorem query_firm [SqlError ε] (f : σ → α) : Firm (query f : Tx σ ε α) := statement_firm _

theorem modify_firm [SqlError ε] (f : σ → σ) : Firm (modify f : Tx σ ε Unit) := statement_firm _

theorem bind_clean {p : Tx σ ε α} {k : α → Tx σ ε β} (hp : Clean p) (hk : ∀ a, Clean (k a)) :
    Clean (p >>= k) := by
  intro x b z haborted hreturns
  obtain ⟨a, y, hp', hk'⟩ := bind_returns.mp hreturns
  exact hk a y b z (hp x a y haborted hp') hk'

/-- A sequence that ends firmly is firm, whatever it swallowed before. -/
theorem bind_firm {p : Tx σ ε α} {k : α → Tx σ ε β} (hk : ∀ a, Firm (k a)) :
    Firm (p >>= k) := by
  intro x b z hreturns
  obtain ⟨a, y, -, hk'⟩ := bind_returns.mp hreturns
  exact hk a y b z hk'

theorem Firm.bind {p : Tx σ ε α} {k : α → Tx σ ε β} (hp : Firm p) (hk : ∀ a, Clean (k a)) :
    Firm (p >>= k) := by
  intro x b z hreturns
  obtain ⟨a, y, hp', hk'⟩ := bind_returns.mp hreturns
  exact hk a y b z (hp x a y hp') hk'

/-- A transaction of a clean program rolls back with an error, or commits and
takes the tables where the program's specification says. -/
theorem transaction_meets {p : Tx σ ε α} {R : σ → α → σ → Prop} (hp : Meets p R)
    (hclean : Clean p) (faults : List (Option ε)) (s : σ) :
    (∃ e, transaction p faults s = (.error e, s)) ∨
      ∃ a s', transaction p faults s = (.ok a, s') ∧ R s a s' := by
  unfold transaction
  rcases hrun : p.run (.opened s faults) with ⟨(e | a), x⟩
  · exact .inl ⟨e, rfl⟩
  · have haborted := hclean _ _ _ rfl hrun
    obtain ⟨-, hR⟩ := hp _ _ _ hrun haborted
    cases hfault : x.fault with
    | some e => exact .inl ⟨e, by simp [hfault]⟩
    | none => exact .inr ⟨a, x.state, by simp [hfault, haborted], hR⟩

theorem transaction_raises {p : Tx σ ε α} {faults : List (Option ε)} {s : σ} {e : ε}
    {x : Session σ ε} (h : Raises p (.opened s faults) e x) :
    transaction p faults s = (.error e, s) := by
  unfold transaction
  rw [show p.run (.opened s faults) = (.error e, x) from h]

section Undisturbed

variable {p : Tx σ ε α} {s s' : σ} {a : α} {e : ε}

/-- A program that returns where the server answers every statement commits. -/
theorem transaction_of_returns (h : Returns p (.opened s []) a (.opened s' [])) :
    transaction p [] s = (.ok a, s') := by
  unfold transaction
  rw [show p.run (.opened s []) = (.ok a, .opened s' []) from h]
  rfl

theorem returns_statement [SqlError ε] {f : σ → Except ε (α × σ)} (h : f s = .ok (a, s')) :
    Returns (statement f) (.opened s []) a (.opened s' []) :=
  statement_returns.mpr ⟨rfl, rfl, s', h, rfl⟩

end Undisturbed

end SeoPlatform.Foundation.SqlTransaction
