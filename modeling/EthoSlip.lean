import EthoSlip.Proofs.Resync
import EthoSlip.Proofs.Oversize
import EthoSlip.Proofs.Credentials
import EthoSlip.Proofs.UartSharing
import EthoSlip.Proofs.BringUp
import EthoSlip.Proofs.HandOver
import EthoSlip.Proofs.HwaddrRoundTrip
import EthoSlip.Proofs.Corruption
import EthoSlip.Proofs.Chunking
import EthoSlip.Proofs.PointerQueue
import EthoSlip.Proofs.BufferBounds
import EthoSlip.Proofs.TimersDue
import EthoSlip.Proofs.Canonical
import EthoSlip.Proofs.CheckContract
import EthoSlip.Proofs.Transmission
import EthoSlip.Proofs.FifoQueue
import EthoSlip.Proofs.UdpTunnel
import EthoSlip.Proofs.AccessPoint
import EthoSlip.Proofs.PcStack
import EthoSlip.Proofs.MempThreads
