import MergeNotes.Proofs.Decoration.Bodies
import MergeNotes.Proofs.Decoration.Log
import MergeNotes.Proofs.Decoration.Relisting
import MergeNotes.Proofs.Decoration.Status
import MergeNotes.Proofs.Decoration.Tally
import MergeNotes.Proofs.Remote.Gathered
import MergeNotes.Proofs.Remote.Respelled
import MergeNotes.Proofs.RoundTrip
import MergeNotes.Proofs.Service.Details
import MergeNotes.Proofs.Service.Roots
import MergeNotes.Proofs.Service.Startup
import MergeNotes.Proofs.Strictness
import MergeNotes.Proofs.Text.Utf16
