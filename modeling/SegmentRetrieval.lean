import SegmentRetrieval.Name.Uri
import SegmentRetrieval.Playback
import SegmentRetrieval.Seal.Chain
import SegmentRetrieval.Session
import SegmentRetrieval.Proofs.Packet.Content
import SegmentRetrieval.Proofs.Packet.SignedPortion
import SegmentRetrieval.Proofs.Seal.Chain
import SegmentRetrieval.Proofs.Retrieval.Authenticity
import SegmentRetrieval.Proofs.Retrieval.Ending
import SegmentRetrieval.Proofs.Retrieval.Progress
import SegmentRetrieval.Proofs.Retrieval.Reassembly
import SegmentRetrieval.Proofs.Verifier.Cascade
import SegmentRetrieval.Proofs.Verifier.Calls
import SegmentRetrieval.Proofs.Verifier.Arrival
import SegmentRetrieval.Proofs.Retrieval.Beyond
import SegmentRetrieval.Proofs.Retrieval.Completion
import SegmentRetrieval.Proofs.Retrieval.Requests
import SegmentRetrieval.Proofs.Retrieval.Fetches
import SegmentRetrieval.Proofs.Retrieval.Late
import SegmentRetrieval.Proofs.Retrieval.Diagnosis
import SegmentRetrieval.Proofs.Pipeline.Life
import SegmentRetrieval.Proofs.Retrieval.Agreement
import SegmentRetrieval.Proofs.Playback.Faults
import SegmentRetrieval.Proofs.Playback.Tracking
import SegmentRetrieval.Proofs.Retrieval.Gathered
import SegmentRetrieval.Proofs.Name.Printing
import SegmentRetrieval.Proofs.Name.Signs
import SegmentRetrieval.Proofs.Verifier.Refused
import SegmentRetrieval.Proofs.Tlv.Truncation
import SegmentRetrieval.Proofs.Backoff
import SegmentRetrieval.Proofs.Fetch.Retries
import SegmentRetrieval.Proofs.Playback.Queues
import SegmentRetrieval.Proofs.Window.Calls
import SegmentRetrieval.Proofs.Window.Cancellation
