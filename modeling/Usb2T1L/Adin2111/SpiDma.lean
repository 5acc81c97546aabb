import Usb2T1L.Adin2111.Bursts
import Usb2T1L.Lib.Lts

/-!
# SPI transfers by DMA

`port_spi_xfer_dma` of `adin2111_port_stm32.c`, step by step, against the callbacks of the HAL in
the SPI and DMA interrupts.  All transfers share one semaphore and one error flag.  A callback may
come at any time while its transfer may still raise one; a timeout only while the semaphore is not
available.  The calls themselves come one after the other, under `s_adin_lock`.

Which transfer a callback is of is not in the program: transfers are numbered, and what each has
raised is recorded, to say whose completion a call has returned on.

## Main definitions

* `SpiPort`, `portSpiXferDma`, `spiSys` — the state, the task, and the system.
* `SpiMove` — everything a step can do.
* `SpiPort.Owned` — a return value that is justified by the call's own transfer.
* `SpiPort.Inv` — the invariant.

## Main results

* `SpiPort.Inv.step` — every step keeps the invariant.
* `SpiPort.Inv.completes` — a transfer that completes succeeds, whatever has been before.
* `spi_completion_owned` — **a completion belongs to its transfer**.
-/

namespace Usb2T1L

/-- `ADIN_SPI_XFER_MAX`, the size of `s_rx_sink`. -/
def adinSpiXferMax : ℕ := 1536 + 16

/-- The callbacks of the HAL. -/
inductive SpiEvent
  | cplt
  | error
  deriving DecidableEq

/-- How a call has come to its return, and what its transfer had raised when the wait for the
semaphore ended. -/
inductive Outcome
  | tooLong
  | notStarted
  | timedOut (xfer : ℕ) (seen : List SpiEvent)
  | signalled (xfer : ℕ) (seen : List SpiEvent)
  deriving DecidableEq

/-- Where the task is in `port_spi_xfer_dma`. -/
inductive XferPc
  | idle
  | clearError
  | drain
  | start
  | wait (xfer : ℕ)
  | abort (xfer : ℕ) (seen : List SpiEvent)
  | check (xfer : ℕ) (seen : List SpiEvent)
  | busy (xfer : ℕ) (seen : List SpiEvent) (guard : ℕ)
  deriving DecidableEq

/-- The statics of the port, the task, and the HAL. -/
structure SpiPort where
  sSpiDone : Bool
  sSpiError : Bool
  pc : XferPc
  /-- The transfers that may still raise a callback. -/
  pending : List ℕ
  /-- The number of transfers started so far. -/
  started : ℕ
  /-- What each transfer has raised. -/
  events : ℕ → List SpiEvent
  /-- The calls that have returned, and whether with zero. -/
  returned : List (Outcome × Bool)

/-- A step of the task, or a callback. -/
inductive SpiAct
  | call (rxNull : Bool) (len : ℕ)
  /-- `s_spi_error = 0`. -/
  | clearError
  /-- The stale signal is dropped. -/
  | drain
  /-- `HAL_SPI_TransmitReceive_DMA`, and whether it returns `HAL_OK`. -/
  | start (ok : Bool)
  /-- The semaphore is taken. -/
  | take
  /-- The wait for it has timed out. -/
  | timeout
  /-- `HAL_SPI_Abort`. -/
  | abort
  /-- `if (s_spi_error)`. -/
  | check
  /-- A round of the loop on `SPI_FLAG_BSY`. -/
  | bsy (flag : Bool)
  | txRxCplt (xfer : ℕ)
  | errorCallback (xfer : ℕ)
  /-- A callback of another SPI. -/
  | foreign (ev : SpiEvent)
  deriving DecidableEq

namespace SpiPort

/-- After `adin2111_port_stm32_get_hal`. -/
def init : SpiPort := ⟨false, false, .idle, [], 0, fun _ => [], []⟩

/-- The call returns. -/
def ret (p : SpiPort) (o : Outcome) (ok : Bool) : SpiPort :=
  { p with pc := .idle, returned := p.returned ++ [(o, ok)] }

/-- The HAL starts a transfer. -/
def begin (p : SpiPort) : SpiPort :=
  { p with pc := .wait p.started, pending := p.started :: p.pending, started := p.started + 1 }

/-- A transfer raises its callback, and no other after that. -/
def raise (p : SpiPort) (xfer : ℕ) (ev : SpiEvent) : SpiPort where
  sSpiDone := p.sSpiDone
  sSpiError := p.sSpiError
  pc := p.pc
  pending := p.pending.erase xfer
  started := p.started
  events := Function.update p.events xfer (p.events xfer ++ [ev])
  returned := p.returned

/-- `HAL_SPI_TxRxCpltCallback`; the test is `hspi->Instance == ADIN_SPI`. -/
def halSpiTxRxCpltCallback (p : SpiPort) (adin : Bool) : SpiPort :=
  if adin then { p with sSpiDone := true } else p

/-- `HAL_SPI_ErrorCallback`. -/
def halSpiErrorCallback (p : SpiPort) (adin : Bool) : SpiPort :=
  if adin then { p with sSpiError := true, sSpiDone := true } else p

end SpiPort

/-- `port_spi_xfer_dma`. -/
def portSpiXferDma (p : SpiPort) (a : SpiAct) : Option SpiPort :=
  match p.pc, a with
  | .idle, .call rxNull len =>
    if rxNull = true ∧ adinSpiXferMax < len then some (p.ret .tooLong false)
    else some { p with pc := .clearError }
  | .clearError, .clearError => some { p with sSpiError := false, pc := .drain }
  | .drain, .drain => some { p with sSpiDone := false, pc := .start }
  | .start, .start ok => if ok then some p.begin else some (p.ret .notStarted false)
  | .wait xfer, .take =>
    if p.sSpiDone then some { p with sSpiDone := false, pc := .check xfer (p.events xfer) }
    else none
  | .wait xfer, .timeout =>
    if p.sSpiDone then none else some { p with pc := .abort xfer (p.events xfer) }
  | .abort xfer seen, .abort =>
    some (SpiPort.ret { p with pending := p.pending.erase xfer } (.timedOut xfer seen) false)
  | .check xfer seen, .check =>
    if p.sSpiError then some (p.ret (.signalled xfer seen) false)
    else some { p with pc := .busy xfer seen 100000 }
  | .busy xfer seen guard, .bsy flag =>
    if flag = true ∧ guard ≠ 0 then some { p with pc := .busy xfer seen (guard - 1) }
    else some (p.ret (.signalled xfer seen) true)
  | _, _ => none

/-- A step: a callback, of a transfer that may raise one or of another SPI, or one of the task. -/
def spiStep (p : SpiPort) : SpiAct → Option SpiPort
  | .txRxCplt xfer =>
    if xfer ∈ p.pending then some ((p.raise xfer .cplt).halSpiTxRxCpltCallback true) else none
  | .errorCallback xfer =>
    if xfer ∈ p.pending then some ((p.raise xfer .error).halSpiErrorCallback true) else none
  | .foreign .cplt => some (p.halSpiTxRxCpltCallback false)
  | .foreign .error => some (p.halSpiErrorCallback false)
  | a => portSpiXferDma p a

/-- The system. -/
def spiSys : Lts SpiPort SpiAct := ⟨spiStep⟩

/-- **Everything a step can do.** -/
inductive SpiMove (p : SpiPort) : SpiAct → SpiPort → Prop
  | rejected {rxNull : Bool} {len : ℕ} (hpc : p.pc = .idle) (hlen : adinSpiXferMax < len) :
      SpiMove p (.call rxNull len) (p.ret .tooLong false)
  | called {rxNull : Bool} {len : ℕ} (hpc : p.pc = .idle) :
      SpiMove p (.call rxNull len) { p with pc := .clearError }
  | cleared (hpc : p.pc = .clearError) :
      SpiMove p .clearError { p with sSpiError := false, pc := .drain }
  | drained (hpc : p.pc = .drain) : SpiMove p .drain { p with sSpiDone := false, pc := .start }
  | started (hpc : p.pc = .start) : SpiMove p (.start true) p.begin
  | notStarted (hpc : p.pc = .start) : SpiMove p (.start false) (p.ret .notStarted false)
  | taken {xfer : ℕ} (hpc : p.pc = .wait xfer) (hdone : p.sSpiDone = true) :
      SpiMove p .take { p with sSpiDone := false, pc := .check xfer (p.events xfer) }
  | timedOut {xfer : ℕ} (hpc : p.pc = .wait xfer) (hdone : p.sSpiDone = false) :
      SpiMove p .timeout { p with pc := .abort xfer (p.events xfer) }
  | aborted {xfer : ℕ} {seen : List SpiEvent} (hpc : p.pc = .abort xfer seen) :
      SpiMove p .abort
        (SpiPort.ret { p with pending := p.pending.erase xfer } (.timedOut xfer seen) false)
  | failed {xfer : ℕ} {seen : List SpiEvent} (hpc : p.pc = .check xfer seen)
      (herror : p.sSpiError = true) : SpiMove p .check (p.ret (.signalled xfer seen) false)
  | passed {xfer : ℕ} {seen : List SpiEvent} (hpc : p.pc = .check xfer seen)
      (herror : p.sSpiError = false) : SpiMove p .check { p with pc := .busy xfer seen 100000 }
  | polled {xfer guard : ℕ} {seen : List SpiEvent} {flag : Bool}
      (hpc : p.pc = .busy xfer seen guard) :
      SpiMove p (.bsy flag) { p with pc := .busy xfer seen (guard - 1) }
  | finished {xfer guard : ℕ} {seen : List SpiEvent} {flag : Bool}
      (hpc : p.pc = .busy xfer seen guard) :
      SpiMove p (.bsy flag) (p.ret (.signalled xfer seen) true)
  | cplt {xfer : ℕ} (hpending : xfer ∈ p.pending) :
      SpiMove p (.txRxCplt xfer) { p.raise xfer .cplt with sSpiDone := true }
  | error {xfer : ℕ} (hpending : xfer ∈ p.pending) :
      SpiMove p (.errorCallback xfer)
        { p.raise xfer .error with sSpiError := true, sSpiDone := true }
  | foreign {ev : SpiEvent} : SpiMove p (.foreign ev) p

theorem portSpiXferDma_move {p p' : SpiPort} {a : SpiAct} (h : portSpiXferDma p a = some p') :
    SpiMove p a p' := by
  unfold portSpiXferDma at h
  split at h
  case h_1 rxNull len hpc =>
    split at h
    · next hlen =>
      obtain rfl := Option.some.inj h
      exact .rejected hpc hlen.2
    · obtain rfl := Option.some.inj h
      exact .called hpc
  case h_2 hpc => obtain rfl := Option.some.inj h; exact .cleared hpc
  case h_3 hpc => obtain rfl := Option.some.inj h; exact .drained hpc
  case h_4 ok hpc =>
    cases ok with
    | false => obtain rfl := Option.some.inj h; exact .notStarted hpc
    | true => obtain rfl := Option.some.inj h; exact .started hpc
  case h_5 xfer hpc =>
    split at h
    · next hdone => obtain rfl := Option.some.inj h; exact .taken hpc hdone
    · exact absurd h (by simp)
  case h_6 xfer hpc =>
    split at h
    · exact absurd h (by simp)
    · next hdone => obtain rfl := Option.some.inj h; exact .timedOut hpc (eq_false_of_ne_true hdone)
  case h_7 xfer seen hpc => obtain rfl := Option.some.inj h; exact .aborted hpc
  case h_8 xfer seen hpc =>
    split at h
    · next herror => obtain rfl := Option.some.inj h; exact .failed hpc herror
    · next herror => obtain rfl := Option.some.inj h; exact .passed hpc (eq_false_of_ne_true herror)
  case h_9 xfer seen guard flag hpc =>
    split at h
    · obtain rfl := Option.some.inj h; exact .polled hpc
    · obtain rfl := Option.some.inj h; exact .finished hpc
  case h_10 => exact absurd h (by simp)

theorem spiStep_move {p p' : SpiPort} {a : SpiAct} (h : spiSys.step p a = some p') :
    SpiMove p a p' := by
  change spiStep p a = some p' at h
  cases a with
  | txRxCplt xfer =>
    rw [spiStep] at h
    split at h
    · next hpending => obtain rfl := Option.some.inj h; exact .cplt hpending
    · exact absurd h (by simp)
  | errorCallback xfer =>
    rw [spiStep] at h
    split at h
    · next hpending => obtain rfl := Option.some.inj h; exact .error hpending
    · exact absurd h (by simp)
  | foreign ev => cases ev <;> (obtain rfl := Option.some.inj h; exact .foreign)
  | call rxNull len | clearError | drain | start ok | take | timeout | abort | check | bsy flag =>
    exact portSpiXferDma_move h

/-! ### The invariant -/

/-- The transfer a call has returned for. -/
def Outcome.xfer? : Outcome → Option ℕ
  | .tooLong | .notStarted => none
  | .timedOut xfer _ | .signalled xfer _ => some xfer

/-- The transfer of the running call. -/
def XferPc.xfer? : XferPc → Option ℕ
  | .idle | .clearError | .drain | .start => none
  | .wait xfer | .abort xfer _ | .check xfer _ | .busy xfer _ _ => some xfer

namespace SpiPort

/-- **The call's own transfer accounts for what it returned**: zero on the completion callback and
nothing else, an error on the error callback, and a timeout on no callback at all. -/
def Owned (p : SpiPort) : Outcome × Bool → Prop
  | (.tooLong, ok) | (.notStarted, ok) => ok = false
  | (.timedOut _ seen, ok) => seen = [] ∧ ok = false
  | (.signalled xfer seen, ok) =>
    seen = p.events xfer ∧ (seen = [.cplt] ∧ ok = true ∨ seen = [.error] ∧ ok = false)

/-- A transfer has raised its callback, and the error flag says which. -/
def Signalled (p : SpiPort) (xfer : ℕ) : Prop :=
  p.pending = [] ∧
    (p.events xfer = [.cplt] ∧ p.sSpiError = false ∨ p.events xfer = [.error] ∧ p.sSpiError = true)

/-- What holds where the task is. -/
def AtPc (p : SpiPort) : Prop :=
  match p.pc with
  | .idle | .clearError => p.pending = []
  | .drain => p.pending = [] ∧ p.sSpiError = false
  | .start => p.pending = [] ∧ p.sSpiError = false ∧ p.sSpiDone = false
  | .wait xfer =>
    p.pending = [xfer] ∧ p.events xfer = [] ∧ p.sSpiError = false ∧ p.sSpiDone = false ∨
      p.Signalled xfer ∧ p.sSpiDone = true
  | .abort xfer seen =>
    seen = [] ∧ (p.pending = [xfer] ∧ p.events xfer = [] ∨ p.pending = [])
  | .check xfer seen => p.Signalled xfer ∧ seen = p.events xfer
  | .busy xfer seen _ => p.pending = [] ∧ p.events xfer = [.cplt] ∧ seen = [.cplt]

/-- The transfers of all calls, in order. -/
def transfers (p : SpiPort) : List ℕ :=
  p.returned.filterMap (fun r => r.1.xfer?) ++ p.pc.xfer?.toList

/-- The invariant. -/
structure Inv (p : SpiPort) : Prop where
  atPc : p.AtPc
  /-- Only a transfer that was started has raised anything. -/
  fresh : ∀ xfer, p.started ≤ xfer → p.events xfer = []
  nodup : p.transfers.Nodup
  lt : ∀ xfer ∈ p.transfers, xfer < p.started
  owned : ∀ r ∈ p.returned, p.Owned r

theorem Inv.init : init.Inv where
  atPc := rfl
  fresh _ _ := rfl
  nodup := List.nodup_nil
  lt _ h := absurd h List.not_mem_nil
  owned _ h := absurd h List.not_mem_nil

/-- A completion that is accounted for stays so, whatever other transfers raise. -/
theorem Owned.mono {p p' : SpiPort} {r : Outcome × Bool} (h : p.Owned r)
    (hevents : ∀ xfer, p.events xfer ≠ [] → p'.events xfer = p.events xfer) : p'.Owned r := by
  obtain ⟨o, ok⟩ := r
  cases o with
  | tooLong | notStarted | timedOut xfer seen => exact h
  | signalled xfer seen =>
    obtain ⟨hseen, hcases⟩ := h
    have hne : p.events xfer ≠ [] := by
      rcases hcases with ⟨hs, -⟩ | ⟨hs, -⟩ <;> simp [← hseen, hs]
    exact ⟨hseen.trans (hevents xfer hne).symm, hcases⟩

theorem transfers_ret {p : SpiPort} {pc : XferPc} {o : Outcome} {ok : Bool} (hpc : p.pc = pc)
    (h : o.xfer? = pc.xfer?) : (p.ret o ok).transfers = p.transfers := by
  unfold transfers ret
  rw [List.filterMap_append, hpc, ← h]
  cases o <;> simp [Outcome.xfer?, XferPc.xfer?]

/-- The task moves on within a call. -/
theorem Inv.moved {p p' : SpiPort} {pc : XferPc} (h : p.Inv) (hpc : p.pc = pc) (hat : p'.AtPc)
    (hevents : p'.events = p.events) (hstarted : p'.started = p.started)
    (hreturned : p'.returned = p.returned) (hxfer : p'.pc.xfer? = pc.xfer?) : p'.Inv := by
  have htransfers : p'.transfers = p.transfers := by
    unfold transfers
    rw [hreturned, hxfer, hpc]
  refine ⟨hat, ?_, ?_, ?_, ?_⟩
  · rw [hevents, hstarted]
    exact h.fresh
  · rw [htransfers]
    exact h.nodup
  · rw [htransfers, hstarted]
    exact h.lt
  · rw [hreturned]
    exact fun r hr => (h.owned r hr).mono fun xfer _ => congrFun hevents xfer

/-- A call returns what its own transfer accounts for. -/
theorem Inv.ret {p : SpiPort} {pc : XferPc} {o : Outcome} {ok : Bool} (h : p.Inv) (hpc : p.pc = pc)
    (hpending : p.pending = []) (hxfer : o.xfer? = pc.xfer?) (ho : p.Owned (o, ok)) :
    (p.ret o ok).Inv where
  atPc := hpending
  fresh := h.fresh
  nodup := by
    rw [transfers_ret hpc hxfer]
    exact h.nodup
  lt := by
    rw [transfers_ret hpc hxfer]
    exact h.lt
  owned r hr := by
    rcases List.mem_append.mp hr with hr | hr
    · exact h.owned r hr
    · rw [List.mem_singleton.mp hr]
      exact ho

/-- The new transfer is none of the earlier ones. -/
theorem Inv.begin {p : SpiPort} (h : p.Inv) (hpc : p.pc = .start) : p.begin.Inv := by
  have hat := h.atPc
  unfold AtPc at hat
  rw [hpc] at hat
  have hnone : p.pc.xfer?.toList = [] := by rw [hpc]; rfl
  have htransfers : p.begin.transfers = p.transfers ++ [p.started] := by
    unfold transfers SpiPort.begin
    rw [hnone, List.append_nil]
    rfl
  refine ⟨Or.inl ⟨?_, h.fresh _ le_rfl, hat.2⟩, ?_, ?_, ?_, h.owned⟩
  · exact congrArg (p.started :: ·) hat.1
  · exact fun xfer hle => h.fresh xfer (Nat.le_of_succ_le hle)
  · rw [htransfers, List.nodup_append_comm]
    exact List.nodup_cons.mpr ⟨fun hmem => lt_irrefl _ (h.lt _ hmem), h.nodup⟩
  · intro xfer hmem
    rw [htransfers] at hmem
    rcases List.mem_append.mp hmem with hmem | hmem
    · exact Nat.lt_succ_of_lt (h.lt xfer hmem)
    · rw [List.mem_singleton.mp hmem]
      exact Nat.lt_succ_self _

/-- What the task is waiting for, if a transfer may still raise a callback. -/
theorem AtPc.pending {p : SpiPort} {xfer : ℕ} (h : p.AtPc) (hx : xfer ∈ p.pending) :
    p.pending = [xfer] ∧ p.events xfer = [] ∧
      ((p.pc = .wait xfer ∧ p.sSpiError = false) ∨ p.pc = .abort xfer []) := by
  have hnone : p.pending ≠ [] := List.ne_nil_of_mem hx
  unfold AtPc at h
  split at h
  · exact absurd h hnone
  · exact absurd h hnone
  · exact absurd h.1 hnone
  · exact absurd h.1 hnone
  · next y hpc =>
    rcases h with ⟨hp, hev, herr, -⟩ | ⟨⟨hp, -⟩, -⟩
    · obtain rfl : xfer = y := by simpa [hp] using hx
      exact ⟨hp, hev, Or.inl ⟨hpc, herr⟩⟩
    · exact absurd hp hnone
  · next y seen hpc =>
    obtain ⟨rfl, ⟨hp, hev⟩ | hp⟩ := h
    · obtain rfl : xfer = y := by simpa [hp] using hx
      exact ⟨hp, hev, Or.inr hpc⟩
    · exact absurd hp hnone
  · exact absurd h.1.1 hnone
  · exact absurd h.1 hnone

/-- A transfer raises its callback, whether the task still waits for it or has just stopped to. -/
theorem Inv.raised {p : SpiPort} {xfer : ℕ} {ev : SpiEvent} {error : Bool} (h : p.Inv)
    (hx : xfer ∈ p.pending)
    (herror : ev = .cplt ∧ error = p.sSpiError ∨ ev = .error ∧ error = true) :
    Inv { p.raise xfer ev with sSpiError := error, sSpiDone := true } := by
  obtain ⟨hp, hev, hpc⟩ := h.atPc.pending hx
  have hgone : p.pending.erase xfer = [] := by simp [hp]
  have hown : Function.update p.events xfer (p.events xfer ++ [ev]) xfer = [ev] := by simp [hev]
  have hothers : ∀ y, y ≠ xfer →
      Function.update p.events xfer (p.events xfer ++ [ev]) y = p.events y :=
    fun y hne => Function.update_of_ne hne _ _
  have hmem : xfer ∈ p.transfers := by
    rcases hpc with ⟨hpc, -⟩ | hpc <;> simp [transfers, hpc, XferPc.xfer?]
  refine ⟨?_, ?_, h.nodup, h.lt, ?_⟩
  · unfold AtPc
    dsimp only [raise]
    rcases hpc with ⟨hpc, hfalse⟩ | hpc <;> rw [hpc]
    · refine Or.inr ⟨⟨hgone, ?_⟩, rfl⟩
      rcases herror with ⟨rfl, rfl⟩ | ⟨rfl, rfl⟩
      · exact Or.inl ⟨hown, hfalse⟩
      · exact Or.inr ⟨hown, rfl⟩
    · exact ⟨rfl, Or.inr hgone⟩
  · intro y hle
    have hlt := h.lt xfer hmem
    exact (hothers y (Nat.lt_of_lt_of_le hlt hle).ne').trans (h.fresh y hle)
  · intro r hr
    refine (h.owned r hr).mono fun y hy => hothers y ?_
    rintro rfl
    exact hy hev

/-- **Every step keeps the invariant.** -/
theorem Inv.step {p p' : SpiPort} {a : SpiAct} (h : p.Inv) (hs : spiSys.step p a = some p') :
    p'.Inv := by
  have hat := h.atPc
  unfold AtPc at hat
  cases spiStep_move hs with
  | rejected hpc =>
    rw [hpc] at hat
    exact h.ret hpc hat rfl rfl
  | called hpc =>
    rw [hpc] at hat
    exact h.moved hpc hat rfl rfl rfl rfl
  | cleared hpc =>
    rw [hpc] at hat
    exact h.moved hpc ⟨hat, rfl⟩ rfl rfl rfl rfl
  | drained hpc =>
    rw [hpc] at hat
    exact h.moved hpc ⟨hat.1, hat.2, rfl⟩ rfl rfl rfl rfl
  | started hpc => exact h.begin hpc
  | notStarted hpc =>
    rw [hpc] at hat
    exact h.ret hpc hat.1 rfl rfl
  | taken hpc hdone =>
    rw [hpc] at hat
    rcases hat with ⟨-, -, -, hfalse⟩ | ⟨hsig, -⟩
    · exact absurd (hfalse.symm.trans hdone) Bool.false_ne_true
    · exact h.moved hpc ⟨hsig, rfl⟩ rfl rfl rfl rfl
  | timedOut hpc hdone =>
    rw [hpc] at hat
    rcases hat with ⟨hp, hev, -⟩ | ⟨-, htrue⟩
    · exact h.moved hpc ⟨hev, Or.inl ⟨hp, hev⟩⟩ rfl rfl rfl rfl
    · exact absurd (hdone.symm.trans htrue) Bool.false_ne_true
  | @aborted xfer seen hpc =>
    rw [hpc] at hat
    obtain ⟨rfl, hpending⟩ := hat
    have hgone : p.pending.erase xfer = [] := by
      rcases hpending with ⟨hp, -⟩ | hp <;> simp [hp]
    have hcancelled : Inv { p with pending := p.pending.erase xfer } := by
      refine h.moved rfl ?_ rfl rfl rfl rfl
      unfold AtPc
      dsimp only
      rw [hpc]
      exact ⟨rfl, Or.inr hgone⟩
    exact hcancelled.ret hpc hgone rfl ⟨rfl, rfl⟩
  | failed hpc herror =>
    rw [hpc] at hat
    obtain ⟨⟨hp, ⟨-, hfalse⟩ | ⟨hev, -⟩⟩, rfl⟩ := hat
    · exact absurd (hfalse.symm.trans herror) Bool.false_ne_true
    · exact h.ret hpc hp rfl ⟨rfl, Or.inr ⟨hev, rfl⟩⟩
  | passed hpc herror =>
    rw [hpc] at hat
    obtain ⟨⟨hp, ⟨hev, -⟩ | ⟨-, htrue⟩⟩, rfl⟩ := hat
    · exact h.moved hpc ⟨hp, hev, hev⟩ rfl rfl rfl rfl
    · exact absurd (herror.symm.trans htrue) Bool.false_ne_true
  | polled hpc =>
    rw [hpc] at hat
    exact h.moved hpc hat rfl rfl rfl rfl
  | finished hpc =>
    rw [hpc] at hat
    obtain ⟨hp, hev, rfl⟩ := hat
    exact h.ret hpc hp rfl ⟨hev.symm, Or.inl ⟨rfl, rfl⟩⟩
  | cplt hpending => exact h.raised hpending (Or.inl ⟨rfl, rfl⟩)
  | error hpending => exact h.raised hpending (Or.inr ⟨rfl, rfl⟩)
  | foreign => exact h

/-- The flag is clear and the semaphore is drained. -/
def drained (p : SpiPort) : SpiPort :=
  { p with sSpiDone := false, sSpiError := false, pc := .start }

/-- The steps of a call whose transfer completes. -/
def completedCall (p : SpiPort) (rxNull : Bool) (len : ℕ) : List SpiAct :=
  [.call rxNull len, .clearError, .drain, .start true, .txRxCplt p.started, .take, .check,
    .bsy false]

/-- **A transfer that completes succeeds**, whatever the earlier ones have left in the semaphore and
in the flag. -/
theorem Inv.completes {p : SpiPort} {len : ℕ} (h : p.Inv) (hpc : p.pc = .idle)
    (hlen : len ≤ adinSpiXferMax) (rxNull : Bool) :
    ∃ p', spiSys.run p (p.completedCall rxNull len) = some p' ∧
      p'.returned = p.returned ++ [(.signalled p.started [.cplt], true)] := by
  have hcall : spiSys.step p (.call rxNull len) = some { p with pc := .clearError } := by
    change portSpiXferDma p _ = _
    unfold portSpiXferDma
    rw [hpc]
    exact if_neg fun hlong => absurd hlen (not_le.mpr hlong.2)
  have hcplt : spiSys.step p.drained.begin (.txRxCplt p.started) =
      some { p.drained.begin.raise p.started .cplt with sSpiDone := true } :=
    if_pos List.mem_cons_self
  have hevents : (p.drained.begin.raise p.started .cplt).events p.started = [.cplt] := by
    change Function.update p.events p.started (p.events p.started ++ [.cplt]) p.started = _
    rw [Function.update_self, h.fresh _ le_rfl, List.nil_append]
  have hrest : spiSys.run { p with pc := .clearError } [.clearError, .drain, .start true,
      .txRxCplt p.started, .take, .check, .bsy false] =
      some ((p.drained.begin.raise p.started .cplt).ret (.signalled p.started [.cplt]) true) := by
    rw [Lts.run_cons_eq_some]
    refine ⟨_, rfl, ?_⟩
    rw [Lts.run_cons_eq_some]
    refine ⟨_, rfl, ?_⟩
    rw [Lts.run_cons_eq_some]
    refine ⟨p.drained.begin, rfl, ?_⟩
    rw [Lts.run_cons_eq_some, ← hevents]
    exact ⟨_, hcplt, rfl⟩
  exact ⟨_, (Lts.run_cons_eq_some _).mpr ⟨_, hcall, hrest⟩, rfl⟩

end SpiPort

/-! ### The length check -/

/-- The transfer is one of the driver's, whatever has been on its bus. -/
def FromDriver (a : SpiAct) : Prop :=
  ∀ rxNull len, a = .call rxNull len → ∃ (σ : Type) (hal : Hal σ) (s : σ) (op : DriverOp),
    ∃ tx ∈ op.transfers hal s, tx.length = len

theorem fromDriver_of_not_call {a : SpiAct} (h : ∀ rxNull len, a ≠ .call rxNull len) :
    FromDriver a :=
  fun rxNull len ha => absurd ha (h rxNull len)

/-- **Every transfer of the driver fits `s_rx_sink`.** -/
theorem DriverOp.transfers_le_adinSpiXferMax {σ : Type} (hal : Hal σ) (s : σ) (op : DriverOp) :
    ∀ tx ∈ op.transfers hal s, tx.length ≤ adinSpiXferMax :=
  fun tx htx => (op.transfers_le hal s tx htx).trans (by decide)

/-- Only the length check rejects a call. -/
theorem SpiMove.returned {p p' : SpiPort} {a : SpiAct} (h : SpiMove p a p') :
    ∀ r ∈ p'.returned, r ∈ p.returned ∨
      (r.1 = .tooLong → ∃ rxNull len, a = .call rxNull len ∧ adinSpiXferMax < len) := by
  intro r hr
  cases h with
  | called | cleared | drained | started | taken | timedOut | passed | polled | cplt | error
  | foreign => exact Or.inl hr
  | rejected hpc hlen =>
    rcases List.mem_append.mp hr with hr | hr
    · exact Or.inl hr
    · exact Or.inr fun _ => ⟨_, _, rfl, hlen⟩
  | notStarted | aborted | failed | finished =>
    rcases List.mem_append.mp hr with hr | hr
    · exact Or.inl hr
    · rw [List.mem_singleton.mp hr]
      exact Or.inr fun ho => absurd ho (by simp)

/-- **The length check lets the driver's transfers pass.** -/
theorem SpiMove.not_tooLong {p p' : SpiPort} {a : SpiAct} (h : SpiMove p a p') (ha : FromDriver a)
    (hp : ∀ r ∈ p.returned, r.1 ≠ .tooLong) : ∀ r ∈ p'.returned, r.1 ≠ .tooLong := by
  intro r hr ho
  rcases h.returned r hr with hr | hlong
  · exact hp r hr ho
  · obtain ⟨rxNull, len, hcall, hlen⟩ := hlong ho
    obtain ⟨σ, hal, s, op, tx, htx, rfl⟩ := ha rxNull len hcall
    exact absurd (op.transfers_le_adinSpiXferMax hal s tx htx) (not_le.mpr hlen)

/-- **A completion belongs to its transfer**: what a call returns is what its own transfer has
raised, no two calls return on one transfer, and no transfer of the driver is too long. -/
theorem spi_completion_owned {as : List SpiAct} {p : SpiPort}
    (hrun : spiSys.run SpiPort.init as = some p) :
    (∀ r ∈ p.returned, p.Owned r) ∧ (p.returned.filterMap fun r => r.1.xfer?).Nodup ∧
      (∀ {σ : Type} (hal : Hal σ) (s : σ) (op : DriverOp),
        ∀ tx ∈ op.transfers hal s, tx.length ≤ adinSpiXferMax) ∧
      ((∀ a ∈ as, FromDriver a) → ∀ r ∈ p.returned, r.1 ≠ .tooLong) := by
  have hinv : p.Inv := Lts.run_invariant (fun _ _ _ h _ hs => h.step hs) SpiPort.Inv.init
    (Lts.along_true _ _) hrun
  refine ⟨hinv.owned, (List.nodup_append.mp hinv.nodup).1,
    fun hal s op => op.transfers_le_adinSpiXferMax hal s, fun hall => ?_⟩
  exact Lts.run_invariant (fun _ _ _ h ha hs => (spiStep_move hs).not_tooLong ha h)
    (fun _ h => absurd h List.not_mem_nil) (Lts.along_of_forall_mem hall _) hrun

/-- A completion lands between the timeout and the abort; the next transfer fails on its own, and
the one after it completes. -/
def lateCompletion : List SpiAct :=
  [.call true 66, .clearError, .drain, .start true, .timeout, .txRxCplt 0, .abort,
    .call true 66, .clearError, .drain, .start true, .errorCallback 1, .take, .check,
    .call true 66, .clearError, .drain, .start true, .txRxCplt 2, .take, .check, .bsy false]

/-- A bus on which every byte read is `0xFF`. -/
def idleBus : Hal Unit := ⟨fun tx s => (some (tx.map fun _ => 0xFF), s)⟩

/-- A frame of 60 bytes, written without CRC. -/
def shortFrame : DriverOp :=
  .writeFrame ⟨false, .switch, 2, fun _ => Nat.le_refl 2⟩ .port1 (List.replicate 60 0) 60

/-- Its burst is 66 bytes long. -/
theorem fromDriver_shortFrame : FromDriver (.call true 66) := by
  rintro rxNull len ⟨⟩
  have hlengths : (shortFrame.transfers idleBus ()).map List.length = [7, 6, 66] := by decide
  have hmem : 66 ∈ (shortFrame.transfers idleBus ()).map List.length := by
    rw [hlengths]
    simp
  obtain ⟨tx, htx, hlen⟩ := List.mem_map.mp hmem
  exact ⟨Unit, idleBus, (), shortFrame, tx, htx, hlen⟩

theorem spi_completion_owned_lateCompletion :
    ∃ p, spiSys.run SpiPort.init lateCompletion = some p ∧
      p.returned.map Prod.snd = [false, false, true] ∧ (∀ r ∈ p.returned, p.Owned r) ∧
        ∀ r ∈ p.returned, r.1 ≠ .tooLong := by
  have hrun : ∃ p, spiSys.run SpiPort.init lateCompletion = some p ∧
      p.returned.map Prod.snd = [false, false, true] := ⟨_, rfl, rfl⟩
  obtain ⟨p, hp, hret⟩ := hrun
  obtain ⟨howned, -, -, hfits⟩ := spi_completion_owned hp
  refine ⟨p, hp, hret, howned, hfits ?_⟩
  intro a ha
  have hcall : ∀ a ∈ lateCompletion, a = .call true 66 ∨ ∀ rxNull len, a ≠ .call rxNull len := by
    simp [lateCompletion]
  rcases hcall a ha with rfl | hne
  · exact fromDriver_shortFrame
  · exact fromDriver_of_not_call hne

end Usb2T1L
