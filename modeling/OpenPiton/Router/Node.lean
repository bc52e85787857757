import OpenPiton.Router.Control
import OpenPiton.Router.Credit
import OpenPiton.Lib.Framed

namespace OpenPiton.Router

def Port.all : List Port := [.n, .e, .s, .w, .p]

/-- The inputs that the outputs of `dynamic_node_top` have on their routes. -/
def wire : Port → Route → Port
  | .n, .a => .s
  | .n, .b => .w
  | .n, .c => .p
  | .n, .d => .e
  | .n, .x => .n
  | .e, .a => .w
  | .e, .b => .p
  | .e, .c => .n
  | .e, .d => .s
  | .e, .x => .e
  | .s, .a => .n
  | .s, .b => .e
  | .s, .c => .w
  | .s, .d => .p
  | .s, .x => .s
  | .w, .a => .e
  | .w, .b => .s
  | .w, .c => .p
  | .w, .d => .n
  | .w, .x => .w
  | .p, .a => .s
  | .p, .b => .w
  | .p, .c => .n
  | .p, .d => .e
  | .p, .x => .p

theorem wire_inj (o : Port) {r r' : Route} (h : wire o r = wire o r') : r = r' := by
  cases o <;> cases r <;> cases r' <;> first | rfl | exact absurd h (by decide)

/-- `LOG2_NUMBER_FIFO_ELEMENTS` of the five input blocks. -/
def log2Elements : Port → Nat
  | .p => 4
  | _ => 2

/-- `FLIT_WIDTH` is `64 << offsetLen`; the location is what the configuration registers give. -/
structure NodeParams where
  offsetLen : Nat
  loc : Loc

namespace NodeParams

variable (p : NodeParams)

abbrev Flit : Type := BitVec (64 * 2 ^ p.offsetLen)

/-- `length_flit`: the length field counts words of 64 bits. -/
def lengthFlit (flit : p.Flit) : Nat := (header flit).lengthIn.toNat / 2 ^ p.offsetLen

theorem lengthFlit_lt (flit : p.Flit) : p.lengthFlit flit < 2 ^ PAYLOAD_LEN :=
  (Nat.div_le_self _ _).trans_lt (header flit).lengthIn.isLt

end NodeParams

/-- The links leave with the defaults of `space_avail_top`. -/
def outLink : LinkParams := ⟨2, 3, Nat.two_pos, four_lt_eight⟩

/-- `dynamic_node_top`. -/
structure Node (p : NodeParams) where
  myLoc : Loc := ⟨0, 0, 0⟩
  nib : Port → InputBlk p.Flit
  inputCtl : Port → InputControl := fun _ => {}
  outputCtl : Port → OutputControl := fun _ => {}
  space : Port → SpaceAvail := fun _ => SpaceAvail.reset outLink

/-- The flits that come in, and the yummies for those that went out. -/
structure NodeIn (p : NodeParams) where
  dataIn : Port → Option p.Flit := fun _ => none
  yummyIn : Port → Bool := fun _ => false

namespace Node

variable {p : NodeParams} (s : Node p)

def inputData (q : Port) : p.Flit := (s.nib q).dataVal

def inputValid (q : Port) : Bool := (s.nib q).dataAvail

def inputLength (q : Port) : Nat := p.lengthFlit (s.inputData q)

def routeReq (q o : Port) : Bool :=
  s.myLoc.routeReq (header (s.inputData q)) ((s.inputCtl q).header (s.inputValid q)) o

def inputTail (q : Port) : Bool := (s.inputCtl q).tail (s.inputValid q) (s.inputLength q)

def source (o : Port) : Port := wire o (s.outputCtl o).currentRouteF

def defaultReady (o : Port) : Bool := s.routeReq (wire o .a) o

def validOut (o : Port) : Bool :=
  (s.outputCtl o).validOut (s.inputValid (s.source o)) (s.defaultReady o) (s.space o).spcAvail

def dataOut (o : Port) : p.Flit := s.inputData (s.source o)

def thanks (o q : Port) : Bool := s.validOut o && s.source o == q

def thanksAll (q : Port) : Bool := Port.all.any fun o => s.thanks o q

def step (i : NodeIn p) : Node p where
  myLoc := p.loc
  nib q := (s.nib q).step (log2Elements q) (i.dataIn q) (s.thanksAll q)
  inputCtl q := (s.inputCtl q).step (s.inputValid q) (s.inputLength q) (s.thanksAll q)
  outputCtl o :=
    (s.outputCtl o).step (fun r => s.routeReq (wire o r) o) (fun r => s.inputTail (wire o r))
      (s.inputValid (s.source o)) (s.defaultReady o) (s.space o).spcAvail
  space o := (s.space o).step outLink (s.validOut o) (i.yummyIn o)

theorem validOut_spec {o : Port} (h : s.validOut o = true) :
    s.inputValid (s.source o) = true ∧ ((s.outputCtl o).plannedF = true ∨ s.defaultReady o = true) := by
  simp only [validOut, OutputControl.validOut, OutputControl.plannedOrDefault, Bool.and_eq_true,
    Bool.or_eq_true] at h
  exact h.1

theorem thanksAll_iff (q : Port) : s.thanksAll q = true ↔ ∃ o, s.validOut o = true ∧ s.source o = q := by
  simp only [thanksAll, thanks, List.any_eq_true, Bool.and_eq_true, beq_iff_eq]
  refine exists_congr fun o => ⟨fun h => h.2, fun h => ⟨?_, h⟩⟩
  cases o <;> decide

end Node

/-- A flit sent by an output: where it came in, and its place in the stream of that input. -/
structure Sent (p : NodeParams) where
  output : Port
  input : Port
  flit : p.Flit
  place : Framed.Place p.Flit

/-- The node with the flits that came in, those it sent, in the order they were, and the credits
that the senders of its inputs have. -/
structure Traffic (p : NodeParams) where
  node : Node p
  arrived : Port → List p.Flit := fun _ => []
  log : List (Sent p) := []
  credit : Port → Nat := fun q => 2 ^ log2Elements q

namespace Traffic

variable {p : NodeParams} (s : Traffic p)

def sentFrom (q : Port) : List (Sent p) := s.log.filter fun e => e.input = q

def sentTo (o : Port) : List (Sent p) := s.log.filter fun e => e.output = o

/-- The flits of an input that the node has sent. -/
def departed (q : Port) : List p.Flit := (s.sentFrom q).map Sent.flit

def sending (o : Port) : Sent p where
  output := o
  input := s.node.source o
  flit := s.node.dataOut o
  place := Framed.next p.lengthFlit (Framed.cursor p.lengthFlit (s.departed (s.node.source o))) (s.node.dataOut o)

def step (i : NodeIn p) : Traffic p where
  node := s.node.step i
  arrived q := s.arrived q ++ (i.dataIn q).toList
  log := s.log ++ (Port.all.filter s.node.validOut).map s.sending
  credit q := s.credit q + (s.node.nib q).yummyOutF.toNat - (i.dataIn q).isSome.toNat

/-- A flit takes a credit of its sender, which a yummy has given back by then. -/
def WithinCredit (i : NodeIn p) : Prop :=
  ∀ q, (i.dataIn q).isSome = true → 0 < s.credit q + (s.node.nib q).yummyOutF.toNat

instance {s : Traffic p} {i : NodeIn p} : Decidable (s.WithinCredit i) :=
  decidable_of_iff (∀ q ∈ Port.all, (i.dataIn q).isSome = true → 0 < s.credit q + (s.node.nib q).yummyOutF.toNat)
    ⟨fun h q => h q (by cases q <;> decide), fun h q _ => h q⟩

/-- After reset the input blocks are empty. -/
def Init : Prop := ∃ mem : Port → Nat → p.Flit, s = { node := { nib := fun q => ⟨mem q, 0, 0, 0, false⟩ } }

/-- A flit follows another on an output: it is the next of its packet, or a header behind a whole packet. -/
def Follows (e e' : Sent p) : Prop :=
  if e.place.left p.lengthFlit = 0 then e'.place.pos = 0
  else e'.input = e.input ∧ e'.place = ⟨e.place.head, e.place.pos + 1⟩

end Traffic

end OpenPiton.Router
