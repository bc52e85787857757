import OpenPiton.L15.Conservation
import OpenPiton.L15.Forwards
import OpenPiton.Noc1.RoundTrip
import OpenPiton.Noc2.RoundTrip
import OpenPiton.Noc3.RoundTrip
import OpenPiton.ChipBridge.Delivery
import OpenPiton.Coherence.Chip
import OpenPiton.Chipset.MemIoResponses
import OpenPiton.Chipset.WidthStream
import OpenPiton.Chipset.WideFilter
import OpenPiton.Common.AsyncFifo
import OpenPiton.Common.BramRefinement
import OpenPiton.Common.Splitters
import OpenPiton.Common.Valrdy
import OpenPiton.Dmbr.Replenishment
import OpenPiton.Home.Translation
import OpenPiton.L2.AmoAlu
import OpenPiton.L2.BroadcastCounter
import OpenPiton.L2.Ecc
import OpenPiton.L2.Mshr
import OpenPiton.L2.SmcLocks
import OpenPiton.L2.WriteBack
import OpenPiton.Router.Credit
import OpenPiton.Router.Drain
import OpenPiton.Router.Fairness
import OpenPiton.Router.Mesh
import OpenPiton.Router.Wormhole
import OpenPiton.NocAxi.Zeroer
import OpenPiton.NocAxi.Stream
import OpenPiton.NocAxi.Memory
import OpenPiton.NocAxi.Ser
import OpenPiton.NocAxi.WriteChannels
import OpenPiton.Sd.Memory
import OpenPiton.Sd.Replacement
import OpenPiton.AxiLite.Responses
