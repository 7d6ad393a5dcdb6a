import SerialIpmi.Channel
import Mathlib.Data.List.Count
import Mathlib.Data.List.Induction

/-! The life of UART channels: the system calls of the constructor, of the destructor and of the
moves, and what becomes of the descriptors. -/
namespace SerialIpmi

/-- The speeds of `baudRateToConstant`; all of these constants are positive. -/
inductive Speed where
  | B2400 | B9600 | B19200 | B38400 | B57600 | B115200 | B230400 | B460800
  deriving DecidableEq, Repr

inductive CharSize where
  | cs5 | cs6 | cs7 | cs8
  deriving DecidableEq, Repr

/-- The line settings that the constructor changes. `raw` says that no character is processed on
its way in or out; `speed` is none where the settings name a speed that is not listed above. -/
structure Termios where
  raw : Bool
  clocal : Bool
  cread : Bool
  parenb : Bool
  cstopb : Bool
  csize : CharSize
  ispeed : Option Speed
  ospeed : Option Speed
  vmin : UInt8
  vtime : UInt8
  deriving DecidableEq, Repr

structure Os where
  definesB460800 : Bool
  openDevice : Nat → String → Option Nat
  tcgetattr : Nat → Option Termios
  tcsetattr : Nat → Bool
  getFlags : Nat → Bool

inductive SysCall where
  | openDevice (devicePath : String) (fd : Option Nat)
  | tcgetattr (fd : Int)
  | tcsetattr (fd : Int) (tio : Termios)
  | getFlags (fd : Int)
  | clearNonblock (fd : Int)
  | close (fd : Int)
  deriving DecidableEq, Repr

inductive OpenFailure where
  | openDevice (devicePath : String)
  | getTermios (devicePath : String)
  | unsupportedBaud (devicePath : String)
  | setTermios (devicePath : String)
  deriving DecidableEq, Repr

namespace Termios

def cfmakeraw (tio : Termios) : Termios :=
  { tio with raw := true, parenb := false, csize := .cs8 }

def configured (speed : Speed) : Termios where
  raw := true
  clocal := true
  cread := true
  parenb := false
  cstopb := false
  csize := .cs8
  ispeed := some speed
  ospeed := some speed
  vmin := 0
  vtime := 1

end Termios

namespace Channel

/-- `none` stands for the result -1. -/
def baudRateToConstant (os : Os) (baud : UInt32) : Option Speed :=
  match baud with
  | 2400 => some .B2400
  | 9600 => some .B9600
  | 19200 => some .B19200
  | 38400 => some .B38400
  | 57600 => some .B57600
  | 115200 => some .B115200
  | 230400 => some .B230400
  | 460800 => if os.definesB460800 then some .B460800 else none
  | _ => none

/-- The constructor. `log` holds the system calls made so far. -/
def construct (os : Os) (devicePath : String) (baud : UInt32) (log : List SysCall) :
    Except OpenFailure Channel × List SysCall :=
  let opened := os.openDevice log.length devicePath
  let log := log ++ [.openDevice devicePath opened]
  match opened with
  | none => (.error (.openDevice devicePath), log)
  | some fd =>
      let attributes := os.tcgetattr log.length
      let log := log ++ [.tcgetattr fd]
      match attributes with
      | none => (.error (.getTermios devicePath), log ++ [.close fd])
      | some tio =>
          let tio := tio.cfmakeraw
          let tio := { tio with
            clocal := true, cread := true, parenb := false, cstopb := false, csize := .cs8 }
          match baudRateToConstant os baud with
          | none => (.error (.unsupportedBaud devicePath), log ++ [.close fd])
          | some speed =>
              let tio := { tio with ispeed := some speed, ospeed := some speed }
              let tio := { tio with vmin := 0, vtime := 1 }
              let accepted := os.tcsetattr log.length
              let log := log ++ [.tcsetattr fd tio]
              if accepted then
                let flags := os.getFlags log.length
                let log := log ++ [.getFlags fd]
                (.ok ⟨devicePath, fd⟩, if flags then log ++ [.clearNonblock fd] else log)
              else (.error (.setTermios devicePath), log ++ [.close fd])

def destroy (channel : Channel) (log : List SysCall) : List SysCall :=
  if channel.fd ≥ 0 then log ++ [.close channel.fd] else log

end Channel

def opens (fd : Nat) (log : List SysCall) : Nat :=
  log.countP fun call => match call with
    | .openDevice _ (some opened) => opened = fd
    | _ => false

def closes (fd : Nat) (log : List SysCall) : Nat :=
  log.count (.close fd)

theorem opens_append (fd : Nat) (log calls : List SysCall) :
    opens fd (log ++ calls) = opens fd log + opens fd calls :=
  List.countP_append

theorem closes_append (fd : Nat) (log calls : List SysCall) :
    closes fd (log ++ calls) = closes fd log + closes fd calls :=
  List.count_append

def OpensOnly (fd : Nat) (calls : List SysCall) : Prop :=
  ∀ fd', closes fd' calls = 0 ∧ opens fd' calls = if fd = fd' then 1 else 0

theorem OpensOnly.close {fd : Nat} {calls : List SysCall} (h : OpensOnly fd calls) (fd' : Nat) :
    opens fd' (calls ++ [.close fd]) = closes fd' (calls ++ [.close fd]) := by
  obtain ⟨hnone, hone⟩ := h fd'
  have hclose : closes fd' [.close fd] = if fd = fd' then 1 else 0 := by
    have hcast : (SysCall.close fd == SysCall.close fd') = decide (fd = fd') := by
      rw [Bool.eq_iff_iff, beq_iff_eq, SysCall.close.injEq, Int.ofNat_inj, decide_eq_true_iff]
    unfold closes
    rw [List.count_singleton, hcast]
    simp
  rw [opens_append, closes_append, hnone, hone, hclose, Nat.zero_add]
  rfl

namespace Channel

/-- The constructor throws and has closed what it opened; or it returns a channel with an open
descriptor, on which it has set all the line settings, whatever these were before. -/
theorem construct_cases (os : Os) (devicePath : String) (baud : UInt32) (log : List SysCall) :
    ∃ calls, (construct os devicePath baud log).2 = log ++ calls ∧
      ((∃ e, (construct os devicePath baud log).1 = .error e ∧
          ∀ fd, opens fd calls = closes fd calls) ∨
        ∃ (fd : Nat) (speed : Speed),
          (construct os devicePath baud log).1 = .ok ⟨devicePath, fd⟩ ∧
          baudRateToConstant os baud = some speed ∧
          .tcsetattr fd (.configured speed) ∈ calls ∧ OpensOnly fd calls) := by
  unfold construct
  cases os.openDevice log.length devicePath with
  | none => exact ⟨[.openDevice devicePath none], rfl, Or.inl ⟨_, rfl, fun fd => rfl⟩⟩
  | some fd =>
    have hopens : ∀ calls : List SysCall, (∀ fd', closes fd' calls = 0 ∧ opens fd' calls = 0) →
        OpensOnly fd (.openDevice devicePath (some fd) :: calls) := by
      intro calls hcalls fd'
      obtain ⟨hcloses, hopens⟩ := hcalls fd'
      have hopened : opens fd' [.openDevice devicePath (some fd)] =
          if fd = fd' then 1 else 0 := by
        simp [opens, List.countP_cons]
      rw [← List.singleton_append, closes_append, opens_append, hcloses, hopens, hopened]
      exact ⟨rfl, rfl⟩
    have hfirst := hopens [.tcgetattr fd] fun fd' => ⟨rfl, rfl⟩
    cases hattributes : os.tcgetattr (log.length + 1) with
    | none =>
      refine ⟨_, ?_, Or.inl ⟨.getTermios devicePath, ?_, hfirst.close⟩⟩ <;> simp [hattributes]
    | some tio =>
      cases hspeed : baudRateToConstant os baud with
      | none =>
        refine ⟨_, ?_, Or.inl ⟨.unsupportedBaud devicePath, ?_, hfirst.close⟩⟩ <;>
          simp [hattributes]
      | some speed =>
        have hsecond := hopens [.tcgetattr fd, .tcsetattr fd (.configured speed)]
          fun fd' => ⟨rfl, rfl⟩
        cases haccepted : os.tcsetattr (log.length + 2) with
        | false =>
          refine ⟨_, ?_, Or.inl ⟨.setTermios devicePath, ?_, hsecond.close⟩⟩ <;>
            simp [hattributes, haccepted, Termios.cfmakeraw, Termios.configured]
        | true =>
          cases hflags : os.getFlags (log.length + 3) with
          | false =>
            have hlast := hopens [.tcgetattr fd, .tcsetattr fd (.configured speed), .getFlags fd]
              fun fd' => ⟨rfl, rfl⟩
            refine ⟨_, ?_, Or.inr ⟨fd, speed, ?_, rfl, ?_, hlast⟩⟩ <;>
              simp [hattributes, haccepted, hflags, Termios.cfmakeraw, Termios.configured]
          | true =>
            have hlast := hopens [.tcgetattr fd, .tcsetattr fd (.configured speed), .getFlags fd,
              .clearNonblock fd] fun fd' => ⟨rfl, rfl⟩
            refine ⟨_, ?_, Or.inr ⟨fd, speed, ?_, rfl, ?_, hlast⟩⟩ <;>
              simp [hattributes, haccepted, hflags, Termios.cfmakeraw, Termios.configured]

end Channel

/-- What a program does with its channel objects. Both moves are defaulted: they take the path and
copy the descriptor, which the source keeps. -/
inductive ObjectOp where
  | construct (devicePath : String) (baud : UInt32)
  | destroy (object : Nat)
  | moveConstruct (source : Nat)
  | moveAssign (target source : Nat)

def ObjectOp.isMove : ObjectOp → Bool
  | .construct .. | .destroy _ => false
  | .moveConstruct _ | .moveAssign .. => true

/-- The objects of a program, `none` where the object has been destroyed. `copied` and
`overwritten` are the descriptors that moves have copied and overwritten; they are kept for
statements only. -/
structure Channels where
  log : List SysCall := []
  objects : List (Option Channel) := []
  copied : List Int := []
  overwritten : List Int := []

namespace Channels

def construct (os : Os) (devicePath : String) (baud : UInt32) (s : Channels) : Channels :=
  match Channel.construct os devicePath baud s.log with
  | (.error _, log) => { s with log }
  | (.ok channel, log) => { s with log, objects := s.objects ++ [some channel] }

def destroy (object : Nat) (s : Channels) : Channels :=
  match s.objects[object]? with
  | some (some channel) =>
      { s with log := channel.destroy s.log, objects := s.objects.set object none }
  | _ => s

def moveConstruct (source : Nat) (s : Channels) : Channels :=
  match s.objects[source]? with
  | some (some channel) =>
      { s with
        objects := s.objects.set source (some { channel with devicePath := "" }) ++ [some channel]
        copied := s.copied ++ [channel.fd] }
  | _ => s

/-- The path is taken out of the source last, also where the source is the target itself. -/
def moveAssign (target source : Nat) (s : Channels) : Channels :=
  match s.objects[target]?, s.objects[source]? with
  | some (some old), some (some channel) =>
      { s with
        objects := (s.objects.set target (some channel)).set source
          (some { channel with devicePath := "" })
        copied := s.copied ++ [channel.fd]
        overwritten := s.overwritten ++ [old.fd] }
  | _, _ => s

def perform (os : Os) (s : Channels) : ObjectOp → Channels
  | .construct devicePath baud => s.construct os devicePath baud
  | .destroy object => s.destroy object
  | .moveConstruct source => s.moveConstruct source
  | .moveAssign target source => s.moveAssign target source

def run (os : Os) (ops : List ObjectOp) : Channels := ops.foldl (perform os) {}

def holds (fd : Nat) (object : Option Channel) : Bool :=
  object.any fun channel => channel.fd = (fd : Int)

@[simp] theorem holds_none (fd : Nat) : holds fd none = false := rfl

@[simp] theorem holds_some (fd : Nat) (channel : Channel) :
    holds fd (some channel) = decide (channel.fd = (fd : Int)) := rfl

def holders (fd : Nat) (s : Channels) : Nat := s.objects.countP (holds fd)

/-- Each opened or copied descriptor is held by an object, has been closed, or was overwritten. -/
structure Balanced (s : Channels) : Prop where
  isOpen : ∀ channel, some channel ∈ s.objects → 0 ≤ channel.fd
  balance : ∀ fd : Nat, closes fd s.log + s.holders fd + s.overwritten.count (fd : Int) =
    opens fd s.log + s.copied.count (fd : Int)

theorem countP_set {α : Type*} (p : α → Bool) {l : List α} {i : Nat} {a : α} (h : l[i]? = some a)
    (b : α) : (l.set i b).countP p + (if p a then 1 else 0) =
      l.countP p + if p b then 1 else 0 := by
  obtain ⟨hi, rfl⟩ := List.getElem?_eq_some_iff.mp h
  rw [List.countP_set hi]
  by_cases ha : p l[i]
  · have hpos : 0 < l.countP p := List.countP_pos_iff.mpr ⟨_, List.getElem_mem hi, ha⟩
    simp only [ha, if_true]
    omega
  · simp only [ha, if_neg Bool.false_ne_true]
    omega

theorem holders_append (fd : Nat) (objects more : List (Option Channel)) :
    (objects ++ more).countP (holds fd) = objects.countP (holds fd) + more.countP (holds fd) :=
  List.countP_append

variable {s : Channels}

theorem Balanced.destroyed (h : Balanced s) {object : Nat} {channel : Channel}
    (hobject : s.objects[object]? = some (some channel)) :
    Balanced { s with log := channel.destroy s.log, objects := s.objects.set object none } := by
  have hopen := h.isOpen channel (List.mem_of_getElem? hobject)
  refine ⟨?_, ?_⟩
  · intro other hother
    rcases List.mem_or_eq_of_mem_set hother with hkept | hnone
    · exact h.isOpen other hkept
    · cases hnone
  · intro fd
    have hset := countP_set (holds fd) hobject none
    have hbalance := h.balance fd
    have hlog : channel.destroy s.log = s.log ++ [.close channel.fd] := if_pos hopen
    have hclose : (SysCall.close channel.fd == SysCall.close fd) = holds fd (some channel) := by
      rw [holds_some, Bool.eq_iff_iff, beq_iff_eq, SysCall.close.injEq, decide_eq_true_iff]
    have hcloses : closes fd (s.log ++ [.close channel.fd]) =
        closes fd s.log + if holds fd (some channel) then 1 else 0 := by
      rw [closes_append, ← hclose]
      congr 1
      unfold closes
      rw [List.count_singleton]
    have hopens : opens fd (s.log ++ [.close channel.fd]) = opens fd s.log := by
      rw [opens_append]
      rfl
    rw [holds_none, if_neg Bool.false_ne_true] at hset
    unfold holders at hbalance ⊢
    dsimp only
    rw [hlog, hcloses, hopens]
    omega

theorem Balanced.destroy (h : Balanced s) (object : Nat) : Balanced (s.destroy object) := by
  unfold Channels.destroy
  cases hobject : s.objects[object]? with
  | none => exact h
  | some channel =>
    cases channel with
    | none => exact h
    | some channel => exact h.destroyed hobject

theorem Balanced.construct (h : Balanced s) (os : Os) (devicePath : String) (baud : UInt32) :
    Balanced (s.construct os devicePath baud) := by
  obtain ⟨calls, hlog, ⟨e, hresult, hsame⟩ | ⟨fd, speed, hresult, -, -, honly⟩⟩ :=
    Channel.construct_cases os devicePath baud s.log
  · have hperform : s.construct os devicePath baud = { s with log := s.log ++ calls } := by
      rw [Channels.construct, ← Prod.eta (Channel.construct os devicePath baud s.log), hresult, hlog]
    rw [hperform]
    refine ⟨h.isOpen, ?_⟩
    intro fd
    have hbalance := h.balance fd
    have hcalls := hsame fd
    unfold holders at hbalance ⊢
    dsimp only
    rw [closes_append, opens_append]
    omega
  · have hperform : s.construct os devicePath baud =
        { s with log := s.log ++ calls, objects := s.objects ++ [some ⟨devicePath, fd⟩] } := by
      rw [Channels.construct, ← Prod.eta (Channel.construct os devicePath baud s.log), hresult, hlog]
    rw [hperform]
    refine ⟨?_, ?_⟩
    · intro channel hchannel
      rcases List.mem_append.mp hchannel with hkept | hnew
      · exact h.isOpen channel hkept
      · rw [List.mem_singleton, Option.some.injEq] at hnew
        rw [hnew]
        exact Int.natCast_nonneg fd
    · intro fd'
      have hbalance := h.balance fd'
      obtain ⟨hcloses, hopens⟩ := honly fd'
      have hnew : [some (⟨devicePath, fd⟩ : Channel)].countP (holds fd') =
          if fd = fd' then 1 else 0 := by
        rw [List.countP_singleton, holds_some]
        simp only [decide_eq_true_iff, Int.ofNat_inj]
      unfold holders at hbalance ⊢
      dsimp only
      rw [closes_append, opens_append, hcloses, hopens, holders_append, hnew]
      omega

theorem holders_moved (fd : Nat) {objects : List (Option Channel)} {source : Nat}
    {channel : Channel} (hsource : objects[source]? = some (some channel)) :
    (objects.set source (some { channel with devicePath := "" })).countP (holds fd) =
      objects.countP (holds fd) := by
  have hset := countP_set (holds fd) hsource (some { channel with devicePath := "" })
  rw [holds_some, holds_some] at hset
  exact Nat.add_right_cancel hset

theorem count_concat (fd : Nat) (descriptors : List Int) (channel : Channel) :
    (descriptors ++ [channel.fd]).count (fd : Int) =
      descriptors.count (fd : Int) + if holds fd (some channel) then 1 else 0 := by
  rw [List.count_append, List.count_singleton, holds_some]
  rfl

theorem mem_moved {objects : List (Option Channel)} {source : Nat} {channel other : Channel}
    (hsource : objects[source]? = some (some channel))
    (hother : some other ∈ objects.set source (some { channel with devicePath := "" })) :
    ∃ kept, some kept ∈ objects ∧ other.fd = kept.fd := by
  rcases List.mem_or_eq_of_mem_set hother with hkept | hmoved
  · exact ⟨other, hkept, rfl⟩
  · rw [Option.some.inj hmoved]
    exact ⟨channel, List.mem_of_getElem? hsource, rfl⟩

theorem Balanced.moveConstruct (h : Balanced s) (source : Nat) :
    Balanced (s.moveConstruct source) := by
  unfold Channels.moveConstruct
  cases hsource : s.objects[source]? with
  | none => exact h
  | some object =>
    cases object with
    | none => exact h
    | some channel =>
      refine ⟨?_, ?_⟩
      · intro other hother
        rcases List.mem_append.mp hother with hkept | hnew
        · obtain ⟨kept, hmem, hfd⟩ := mem_moved hsource hkept
          rw [hfd]
          exact h.isOpen kept hmem
        · rw [List.mem_singleton, Option.some.injEq] at hnew
          rw [hnew]
          exact h.isOpen channel (List.mem_of_getElem? hsource)
      · intro fd
        have hbalance := h.balance fd
        unfold holders at hbalance ⊢
        dsimp only
        rw [holders_append, holders_moved fd hsource, count_concat, List.countP_singleton]
        omega

theorem Balanced.moveAssign (h : Balanced s) (target source : Nat) :
    Balanced (s.moveAssign target source) := by
  unfold Channels.moveAssign
  cases htarget : s.objects[target]? with
  | none => exact h
  | some oldObject =>
    cases hsource : s.objects[source]? with
    | none => cases oldObject <;> exact h
    | some object =>
      cases oldObject with
      | none => exact h
      | some old =>
        cases object with
        | none => exact h
        | some channel =>
          -- the source still stands in its place, also when it is the target itself
          have hassigned : (s.objects.set target (some channel))[source]? = some (some channel) := by
            by_cases hsame : target = source
            · have hlength := (List.getElem?_eq_some_iff.mp htarget).1
              rw [← hsame, List.getElem?_set_self hlength]
            · rw [List.getElem?_set_ne hsame, hsource]
          refine ⟨?_, ?_⟩
          · intro other hother
            obtain ⟨kept, hmem, hfd⟩ := mem_moved hassigned hother
            rw [hfd]
            rcases List.mem_or_eq_of_mem_set hmem with hkept | hnew
            · exact h.isOpen kept hkept
            · rw [Option.some.inj hnew]
              exact h.isOpen channel (List.mem_of_getElem? hsource)
          · intro fd
            have hset := countP_set (holds fd) htarget (some channel)
            have hbalance := h.balance fd
            unfold holders at hbalance ⊢
            dsimp only
            rw [holders_moved fd hassigned, count_concat, count_concat]
            omega

theorem Balanced.perform (h : Balanced s) (os : Os) (op : ObjectOp) :
    Balanced (s.perform os op) := by
  cases op with
  | construct devicePath baud => exact h.construct os devicePath baud
  | destroy object => exact h.destroy object
  | moveConstruct source => exact h.moveConstruct source
  | moveAssign target source => exact h.moveAssign target source

theorem balanced_run (os : Os) (ops : List ObjectOp) : Balanced (run os ops) := by
  unfold run
  induction ops using List.reverseRecOn with
  | nil =>
    refine ⟨?_, ?_⟩
    · intro channel hchannel
      cases hchannel
    · intro fd
      rfl
  | append_singleton ops op ih =>
    rw [List.foldl_append, List.foldl_cons, List.foldl_nil]
    exact ih.perform os op

theorem destroy_moves (s : Channels) (object : Nat) :
    (s.destroy object).copied = s.copied ∧ (s.destroy object).overwritten = s.overwritten := by
  unfold destroy
  cases s.objects[object]? with
  | none => exact ⟨rfl, rfl⟩
  | some channel => cases channel <;> exact ⟨rfl, rfl⟩

theorem construct_moves (s : Channels) (os : Os) (devicePath : String) (baud : UInt32) :
    (s.construct os devicePath baud).copied = s.copied ∧
      (s.construct os devicePath baud).overwritten = s.overwritten := by
  unfold construct
  cases Channel.construct os devicePath baud s.log with
  | mk result log => cases result <;> exact ⟨rfl, rfl⟩

theorem run_without_moves (os : Os) {ops : List ObjectOp} (h : ∀ op ∈ ops, op.isMove = false) :
    (run os ops).copied = [] ∧ (run os ops).overwritten = [] := by
  unfold run
  induction ops using List.reverseRecOn with
  | nil => exact ⟨rfl, rfl⟩
  | append_singleton ops op ih =>
    have hkept := ih fun op hop => h op (List.mem_append_left _ hop)
    have hop := h op (List.mem_append_right _ (List.mem_singleton_self op))
    rw [List.foldl_append, List.foldl_cons, List.foldl_nil]
    set s := ops.foldl (Channels.perform os) {}
    cases op with
    | moveConstruct source => cases hop
    | moveAssign target source => cases hop
    | destroy object =>
      obtain ⟨hcopied, hoverwritten⟩ := s.destroy_moves object
      exact ⟨hcopied.trans hkept.1, hoverwritten.trans hkept.2⟩
    | construct devicePath baud =>
      obtain ⟨hcopied, hoverwritten⟩ := s.construct_moves os devicePath baud
      exact ⟨hcopied.trans hkept.1, hoverwritten.trans hkept.2⟩

/-- Whatever the operating system answers and in whatever order a program constructs, moves and
destroys its channels, a descriptor is closed as often as it was opened and copied, but for the
objects that still hold it and the times it was overwritten. So once all objects are gone it has
been closed as often as it was opened exactly when moves have copied it as often as they have
overwritten it; and a program without moves neither leaks a descriptor nor closes one twice. -/
theorem descriptors_balance (os : Os) (ops : List ObjectOp) (fd : Nat) :
    let s := run os ops
    closes fd s.log + s.holders fd + s.overwritten.count (fd : Int) =
      opens fd s.log + s.copied.count (fd : Int) ∧
    ((∀ object ∈ s.objects, object = none) →
      (closes fd s.log = opens fd s.log ↔
        s.copied.count (fd : Int) = s.overwritten.count (fd : Int))) ∧
    ((∀ op ∈ ops, op.isMove = false) → closes fd s.log + s.holders fd = opens fd s.log) := by
  intro s
  have hbalance : closes fd s.log + s.holders fd + s.overwritten.count (fd : Int) =
      opens fd s.log + s.copied.count (fd : Int) := (balanced_run os ops).balance fd
  refine ⟨hbalance, ?_, ?_⟩
  · intro hgone
    have hnone : s.holders fd = 0 := by
      unfold holders
      rw [List.countP_eq_zero]
      intro object hobject
      rw [hgone object hobject]
      exact Bool.false_ne_true
    omega
  · intro hmoves
    obtain ⟨hcopied, hoverwritten⟩ := run_without_moves os hmoves
    have hcopied : s.copied = [] := hcopied
    have hoverwritten : s.overwritten = [] := hoverwritten
    rw [hcopied, hoverwritten] at hbalance
    exact hbalance

end Channels

end SerialIpmi
