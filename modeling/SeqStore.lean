import SeqStore.Element.Caseless
import SeqStore.Element.Nested
import SeqStore.Session.Basic
import SeqStore.Proofs.Access
import SeqStore.Proofs.Accounting
import SeqStore.Proofs.Capacity
import SeqStore.Proofs.Congruence
import SeqStore.Proofs.Conservation
import SeqStore.Proofs.DocumentOrder
import SeqStore.Proofs.Extension
import SeqStore.Proofs.Feed
import SeqStore.Proofs.Positions
import SeqStore.Proofs.Removal
import SeqStore.Proofs.RemovalOrder
import SeqStore.Proofs.RoundTrip
import SeqStore.Proofs.SearchPaths
import SeqStore.Proofs.DefaultMethods
import SeqStore.Proofs.Equality
import SeqStore.Proofs.DisplayText
import SeqStore.Proofs.Rendering
import SeqStore.Proofs.DistinctTexts
import SeqStore.Proofs.Walks
