import YCStudio.Api.Durability
import YCStudio.Api.Listings
import YCStudio.Consistency.Confinement
import YCStudio.Consistency.Orphans
import YCStudio.Consistency.SeedIdempotence
import YCStudio.Consistency.Serialisability
import YCStudio.Consistency.Visibility
import YCStudio.Core.Middleware
import YCStudio.Evaluation.CorpusTenants
import YCStudio.Evaluation.CutoffAgreement
import YCStudio.Evaluation.RankExchange
import YCStudio.Evaluation.Recounts
import YCStudio.Evaluation.SummaryBounds
import YCStudio.Frontend.KnowledgeBasePage
import YCStudio.Rag.ChunkBoundaries
import YCStudio.Rag.CleanFixpoint
import YCStudio.Rag.Embeddings
import YCStudio.Rag.Tables
import YCStudio.Services.Frontmatter
